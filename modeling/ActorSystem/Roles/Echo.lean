import ActorSystem.Program

/-!
# The echo

A role without state that sends every text back to whoever sent it.
-/

namespace ActorSystem.Echo

variable {σ : Signature}

def defaultName : String := "echo"

def echoed (target : Address) (text : String) : Event :=
  ⟨.debug, "actor_sample::echo", "Echo", [("to", target.text), ("text", text)]⟩

/-- Fails on a message without a sender, on anything but a text, and when the sender is gone. -/
def handle [Carries σ.Value String] (ctx : Context) (m : Message σ.Value) :
    Program σ Outcome := do
  let some source := m.source | return .error
  let some text := m.get? String | return .error
  Program.log (echoed source text)
  match ← ctx.post source (.of text) with
  | .ok () => return .complete
  | .error _ => return .error

end ActorSystem.Echo
