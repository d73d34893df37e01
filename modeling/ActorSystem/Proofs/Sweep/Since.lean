import ActorSystem.Proofs.Act.Service
import ActorSystem.Proofs.Pool.Lookup

/-!
# What a drain leaves alone

While an actor is drained its role may do much to the pool, but all that it does to the table is to
append new actors, and nobody else is taken, let go or stopped. `Pool.Since a p q` says this of a
pool before and after.

* `Since.trans`: one such change after another.
* `Act.since`: an act that only handles `a` comes to such a change.
-/

namespace ActorSystem

variable {σ : Signature} {a : ActorRef} {p q r : Pool σ}

/-- The actors that are in `q` and not yet in `p`, in order of registration. -/
def Pool.newcomers (p q : Pool σ) : List ActorRef :=
  List.range' p.actors.size (q.actors.size - p.actors.size)

theorem Pool.newcomers_append (hpq : p.actors.size ≤ q.actors.size)
    (hqr : q.actors.size ≤ r.actors.size) : p.newcomers q ++ q.newcomers r = p.newcomers r := by
  have hstart : q.actors.size = p.actors.size + (q.actors.size - p.actors.size) := by omega
  have hlength : r.actors.size - p.actors.size =
      q.actors.size - p.actors.size + (r.actors.size - q.actors.size) := by omega
  rw [newcomers, newcomers, newcomers, hlength, ← List.range'_append_1, ← hstart]

theorem Pool.newcomers_eq_nil (h : q.actors.size = p.actors.size) : p.newcomers q = [] := by
  rw [newcomers, h, Nat.sub_self, List.range'_zero]

structure Pool.Since (a : ActorRef) (p q : Pool σ) : Prop where
  grown : p.actors.size ≤ q.actors.size
  table : q.table = p.table ++ p.newcomers q
  others : ∀ c < p.actors.size, c ≠ a → q.phaseOf c = p.phaseOf c
  newcomers : ∀ c, p.actors.size ≤ c → c < q.actors.size → c ≠ a → q.phaseOf c = some .idle

namespace Pool.Since

theorem of_kept (hsize : q.actors.size = p.actors.size) (htable : q.table = p.table)
    (hphase : ∀ c, c ≠ a → q.phaseOf c = p.phaseOf c) : Since a p q where
  grown := Nat.le_of_eq hsize.symm
  table := by rw [htable, newcomers_eq_nil hsize, List.append_nil]
  others c _ hne := hphase c hne
  newcomers c hle hlt _ := absurd (hsize ▸ hlt) (Nat.not_lt_of_le hle)

theorem refl (a : ActorRef) (p : Pool σ) : Since a p p := of_kept rfl rfl fun _ _ => rfl

theorem trans (hpq : Since a p q) (hqr : Since a q r) : Since a p r where
  grown := Nat.le_trans hpq.grown hqr.grown
  table := by
    rw [hqr.table, hpq.table, List.append_assoc, newcomers_append hpq.grown hqr.grown]
  others c hc hne := by
    have hc' : c < q.actors.size := Nat.lt_of_lt_of_le hc hpq.grown
    rw [hqr.others c hc' hne, hpq.others c hc hne]
  newcomers c hle hlt hne := by
    by_cases hold : c < q.actors.size
    · rw [hqr.others c hold hne]
      exact hpq.newcomers c hle hold hne
    · exact hqr.newcomers c (Nat.le_of_not_lt hold) hlt hne

end Pool.Since

open Pool (Since)

theorem Atom.since_effect {x : Atom σ} (hx : x.handles a) (w : World σ) :
    Since a w.pool (x.effect w).pool := by
  have hsize := x.size_effect w
  have htable := x.table_effect w
  have hphase := x.phaseOf_effect w
  cases x with
  | claim c =>
    obtain rfl : c = a := of_decide_eq_true hx
    refine .of_kept hsize htable fun d hd => (hphase d).trans (if_neg ?_)
    intro h
    exact hd h.1.symm
  | finish c o =>
    obtain rfl : c = a := of_decide_eq_true hx
    refine .of_kept hsize htable fun d hd => (hphase d).trans (if_neg ?_)
    intro h
    exact hd h.1.symm
  | sicken c =>
    obtain rfl : c = a := of_decide_eq_true hx
    exact .of_kept hsize htable fun d hd => (hphase d).trans (if_neg hd.symm)
  | enroll y =>
    have hidle : y.phase = .idle := by
      simpa [Atom.handles, Atom.asked, Atom.registers, Atom.serves, Atom.minds] using hx
    refine ⟨?_, ?_, fun c hc _ => ?_, fun c hle hlt _ => ?_⟩
    · rw [hsize]
      exact Nat.le_succ _
    · rw [Pool.newcomers, hsize, htable, Nat.add_sub_cancel_left]
      rfl
    · rw [hphase]
      exact if_neg (Nat.ne_of_lt hc)
    · rw [hsize] at hlt
      have hnew : c = w.pool.actors.size := Nat.le_antisymm (Nat.le_of_lt_succ hlt) hle
      rw [hphase]
      exact (if_pos hnew).trans (congrArg some hidle)
  | alter f | eraseSick | erase c | snapshot | slot n => cases hx
  | _ => exact .of_kept hsize htable fun d _ => hphase d

theorem Act.since {α : Type} {t : Act σ α} (ht : t.All (·.handles a)) (w : World σ) :
    Since a w.pool (t.run w).2.pool := by
  induction t generalizing w with
  | done b => exact .refl a w.pool
  | ask x next ih => exact (Atom.since_effect ht.1 w).trans (ih _ (ht.2 _) _)

end ActorSystem
