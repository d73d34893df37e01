import ActorSystem.Roles.Counter
import ActorSystem.Roles.Echo
import ActorSystem.Roles.Player
import ActorSystem.Sweep

/-!
# The cast of the demo

The roles that the demo shows, what they say to each other, and the signature this makes. There
is nothing outside of the pool that they could call on.
-/

namespace ActorSystem.Demo

/-! ## What messages carry -/

inductive Value where
  | text (s : String)
  | command (c : CounterCommand)
  | total (t : Total)
  | ball (b : Ball)
  | gameOver (g : GameOver)

namespace Value

instance : Carries Value String where
  wrap := text
  unwrap | text s => some s | _ => none
  unwrap_wrap _ := rfl

instance : Carries Value CounterCommand where
  wrap := command
  unwrap | command c => some c | _ => none
  unwrap_wrap _ := rfl

instance : Carries Value Total where
  wrap := total
  unwrap | total t => some t | _ => none
  unwrap_wrap _ := rfl

instance : Carries Value Ball where
  wrap := ball
  unwrap | ball b => some b | _ => none
  unwrap_wrap _ := rfl

instance : Carries Value GameOver where
  wrap := gameOver
  unwrap | gameOver g => some g | _ => none
  unwrap_wrap _ := rfl

end Value

/-! ## Who is on stage -/

inductive Part where
  | echo
  | counter (c : Counter)
  | player (p : Player)

@[reducible] def signature : Signature where
  Role := Part
  Value := Value
  Env := Unit
  Call := Empty
  Reply := nofun

namespace Part

def name : Part → String
  | echo => Echo.defaultName
  | counter _ => Counter.defaultName
  | player p => p.name

def handle (part : Part) (ctx : Context) (m : Message Value) :
    Program signature (Ending signature) :=
  match part with
  | echo => return ⟨part, .returned (← Echo.handle (σ := signature) ctx m)⟩
  | counter c => do
    let (c, o) ← c.handle (σ := signature) ctx m
    return ⟨counter c, .returned o⟩
  | player p => return ⟨part, .returned (← p.handle (σ := signature) ctx m)⟩

end Part

def company : Company signature where
  behaviour := ⟨Part.name, Part.handle⟩
  outside := nofun

end ActorSystem.Demo
