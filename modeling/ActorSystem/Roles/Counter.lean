import ActorSystem.Program

/-!
# The counter

A running total of one actor. Clients add to it, set it back to zero, or ask for it.
-/

namespace ActorSystem

inductive CounterCommand where
  | add (n : Int64)
  /-- Asks for the total, to be sent to the sender of this message. -/
  | report
  | reset
  deriving DecidableEq

def CounterCommand.inspect : CounterCommand → String
  | add n => s!"Add({n.toInt})"
  | report => "Report"
  | reset => "Reset"

structure Total where
  value : Int64
  deriving DecidableEq

def Total.inspect (t : Total) : String := s!"Total({t.value.toInt})"

structure Counter where
  total : Int64 := 0
  deriving DecidableEq

namespace Counter

variable {σ : Signature}

def defaultName : String := "counter"

def origin : String := "actor_sample::counter"

def unknownMessage (a : Address) : Event :=
  ⟨.warn, origin, "Counter got an unknown message", [("actor", a.text)]⟩

def obeyed (a : Address) (command : CounterCommand) (total : Int64) : Event :=
  ⟨.debug, origin, "Counter",
    [("actor", a.text), ("command", command.inspect), ("total", toString total.toInt)]⟩

def apply (c : Counter) : CounterCommand → Counter
  | .add n => ⟨c.total + n⟩
  | .reset => ⟨0⟩
  | .report => c

/-- Fails on anything but a command, and on a question that cannot be answered. -/
def handle [Carries σ.Value CounterCommand] [Carries σ.Value Total] (c : Counter)
    (ctx : Context) (m : Message σ.Value) : Program σ (Counter × Outcome) := do
  let some command := m.get? CounterCommand
    | Program.log (unknownMessage ctx.address)
      return (c, .error)
  if command = .report then
    if let .error _ ← ctx.reply m (.of (⟨c.total⟩ : Total)) then return (c, .error)
  let c := c.apply command
  Program.log (obeyed ctx.address command c.total)
  return (c, .complete)

end Counter

end ActorSystem
