import ActorSystem.Pool

/-!
# Worlds

A pool, its log so far and what lies outside of it. The log is kept beside the pool, so that a
pool is the same whether or not anyone reported on it.
-/

namespace ActorSystem

structure World (σ : Signature) where
  pool : Pool σ
  /-- Oldest first. -/
  log : Array Event := #[]
  env : σ.Env

namespace World

variable {σ : Signature}

def modifyPool (w : World σ) (f : Pool σ → Pool σ) : World σ := { w with pool := f w.pool }

def modifyOffice (w : World σ) (f : Office σ.Value → Office σ.Value) : World σ :=
  w.modifyPool fun p => { p with office := f p.office }

def modifyActor (w : World σ) (a : ActorRef) (f : Actor σ → Actor σ) : World σ :=
  w.modifyPool (·.modifyActor a f)

def empty (config : Config) (env : σ.Env) : World σ := { pool := { config }, env }

def report (w : World σ) (e : Event) : World σ := { w with log := w.log.push e }

end World

end ActorSystem
