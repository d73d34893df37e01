import ActorSystem.Program

/-!
# Players of a rally

Two players send a ball back and forth. Each hit answers the sender of the ball, so neither
needs to know the other. The player who makes the last hit of the rally tells the referee.
-/

namespace ActorSystem

structure Ball where
  hits : UInt32
  deriving DecidableEq

structure GameOver where
  hits : UInt32
  lastHitBy : String
  deriving DecidableEq

def GameOver.inspect (g : GameOver) : String :=
  "GameOver \x7b hits: " ++ toString g.hits.toNat ++ ", last_hit_by: " ++
    Text.quote g.lastHitBy ++ " \x7d"

structure Player where
  name : String
  rally : UInt32
  referee : Address
  deriving DecidableEq

namespace Player

variable {σ : Signature}

def rallyOver (name : String) (hits : UInt32) : Event :=
  ⟨.info, "actor_sample::ping_pong", "Rally over",
    [("player", name), ("hits", toString hits.toNat)]⟩

/-- Fails on anything but a ball, and when the next message of the game cannot be sent. -/
def handle [Carries σ.Value Ball] [Carries σ.Value GameOver] (p : Player) (ctx : Context)
    (m : Message σ.Value) : Program σ Outcome := do
  let some ball := m.get? Ball | return .error
  let hits := ball.hits + 1
  let sent ← if p.rally ≤ hits then do
      Program.log (rallyOver p.name hits)
      ctx.post p.referee (.of (⟨hits, p.name⟩ : GameOver))
    else ctx.reply m (.of (⟨hits⟩ : Ball))
  match sent with
  | .ok () => return .complete
  | .error _ => return .error

end Player

end ActorSystem
