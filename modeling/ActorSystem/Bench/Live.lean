import ActorSystem.Bench.Session

/-!
# A pool at work

A pool whose workers run. Between two steps of its user they sweep until no actor has mail, so
what a user sees here is what can be seen once the pool has come to rest. Roles that keep each
other busy forever are cut off after a large number of sweeps.
-/

namespace ActorSystem.Bench

open Ensemble

structure LivePool where
  session : Session
  config : Config
  /-- Cleared by shutdown; after it nothing handles mail. -/
  up : Bool := true

namespace LivePool

def start (config : Config) : Except Error LivePool := do
  config.validate
  return { session := Session.start config, config }

/-- Acts on the pool, whether or not its workers are up. -/
def act {α : Type} (p : LivePool) (absent : α) (deed : Deed α) : α × LivePool :=
  let (a, session) := p.session.atOffice Session.mainHandle absent (fun _ => deed)
  (a, { p with session })

/-- How many sweeps the workers make at most before the user goes on. -/
def sweepLimit : Nat := 10000

/-- The workers sweep until there is no work. -/
def rest (p : LivePool) : LivePool :=
  if p.up then (p.act 0 (Act.settle company 0 sweepLimit)).2 else p

def stop (p : LivePool) : LivePool := { p with up := false }

/-- Posts `count` letters. The answer is how many arrived. -/
def postMany (target : Address) (m : Message Value) : Nat → Deed Nat
  | 0 => return 0
  | count + 1 => do
    let result ← Act.post target m
    let others ← postMany target m count
    match result with
    | .ok () => return others + 1
    | .error _ => return others

end LivePool

end ActorSystem.Bench
