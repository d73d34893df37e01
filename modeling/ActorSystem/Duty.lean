import ActorSystem.Signal
import ActorSystem.Sweep

/-!
# Duties

What a thread does to a site, a motion at a time. Most of it are acts on the world, with one
addition: whoever has put a letter into a mailbox notifies all workers, one after another, before
anything else.

The notification is made under the worker's mutex, so that it cannot come between a worker's last
look at the mail and its falling asleep. Stopping the workers sets each flag under the mutex and
notifies after that.
-/

namespace ActorSystem

abbrev Duty (σ : Signature) : Type → Type := Dialogue (Motion.Answer (σ := σ))

/-- The access puts a letter into a mailbox. -/
def Atom.isPut {σ : Signature} : Atom σ → Bool
  | put .. => true
  | _ => false

namespace Duty

variable {σ : Signature} {α : Type}

def wakeAll : List Nat → Duty σ Unit
  | [] => .done ()
  | w :: rest =>
    .ask (.signal w .lock) fun _ => .ask (.signal w .notify) fun _ =>
      .ask (.signal w .unlock) fun _ => wakeAll rest

def stopAll : List Nat → Duty σ Unit
  | [] => .done ()
  | w :: rest =>
    .ask (.signal w .lock) fun _ => .ask (.signal w .setStop) fun _ =>
      .ask (.signal w .unlock) fun _ => .ask (.signal w .notify) fun _ => stopAll rest

/-- The act among so many workers. -/
def ofAct (workers : Nat) : Act σ α → Duty σ α
  | .done a => .done a
  | .ask x next => .ask (.atom x) fun y =>
    if x.isPut then (wakeAll (List.range workers)).bind fun _ => ofAct workers (next y)
    else ofAct workers (next y)

end Duty

end ActorSystem
