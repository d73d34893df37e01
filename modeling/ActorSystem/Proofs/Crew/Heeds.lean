import ActorSystem.Proofs.Act.Composed
import ActorSystem.Proofs.Crew.Trails

/-!
# Rules that threads heed

A thread makes its accesses with those of others in between, so that what it finds may be anything;
but what it does next depends on what it has done and learned so far. `Heeds ok h t Q` says that
the act `t`, begun after the accesses `h`, makes only accesses that `ok` allows after those before
them, and ends with accesses of which `Q` holds.

* `Heeds.bind`, `Heeds.mono`: one act after another.
* `Heeding.step`: if every routine heeds a rule, so does every thread of a crew.
-/

namespace ActorSystem

variable {σ : Signature} {α β : Type}

/-- The act makes only accesses that `ok` allows after the accesses before, and `Q` holds at its
end. -/
def Heeds (ok : List (Visit σ) → Visit σ → Prop) :
    List (Visit σ) → Act σ α → (α → List (Visit σ) → Prop) → Prop
  | h, .done a, Q => Q a h
  | h, .ask x next, Q => ∀ w, ok h ⟨w, x⟩ ∧ Heeds ok (h ++ [⟨w, x⟩]) (next (x.answer w)) Q

namespace Heeds

variable {ok : List (Visit σ) → Visit σ → Prop} {h : List (Visit σ)}
variable {Q Q' : α → List (Visit σ) → Prop} {R : β → List (Visit σ) → Prop}

theorem pure {a : α} (hq : Q a h) : Heeds ok h (pure a) Q := hq

theorem mono {t : Act σ α} (ht : Heeds ok h t Q) (hq : ∀ a h, Q a h → Q' a h) :
    Heeds ok h t Q' := by
  induction t generalizing h with
  | done a => exact hq a h ht
  | ask x next ih => exact fun w => ⟨(ht w).1, ih _ (ht w).2⟩

theorem bind {t : Act σ α} {f : α → Act σ β} (ht : Heeds ok h t Q)
    (hf : ∀ a h, Q a h → Heeds ok h (f a) R) : Heeds ok h (t >>= f) R := by
  induction t generalizing h with
  | done a => exact hf a h ht
  | ask x next ih => exact fun w => ⟨(ht w).1, ih _ (ht w).2⟩

theorem atom {x : Atom σ} {Q : x.Answer → List (Visit σ) → Prop}
    (hx : ∀ w, ok h ⟨w, x⟩ ∧ Q (x.answer w) (h ++ [⟨w, x⟩])) : Heeds ok h (Act.atom x) Q :=
  hx

/-- The induction over what an act is composed of, for a rule that does not speak of common
accesses. -/
theorem of_composed {ok : List (Visit σ) → Visit σ → Prop}
    (hcommon : ∀ h (v : Visit σ), v.atom.common → ok h v)
    (hregister : ∀ h name role, Heeds ok h (Act.register name role) fun _ _ => True)
    (hchange : ∀ h a id, Heeds ok h (Act.changeId a id) fun _ _ => True) {t : Act σ α}
    (ht : Act.Composed t) (h : List (Visit σ)) : Heeds ok h t fun _ _ => True := by
  induction ht generalizing h with
  | pure a => exact trivial
  | bind ht hf iht ihf => exact (iht h).bind fun a h' _ => ihf a h'
  | access x hx => exact fun w => ⟨hcommon h ⟨w, x⟩ hx, trivial⟩
  | register name role => exact hregister h name role
  | changeId a id => exact hchange h a id

end Heeds

/-! ## In a crew -/

/-- Where an element of a list is, to which one has been added. -/
theorem snoc_split {α : Type} {xs before after : List α} {x y : α}
    (h : xs ++ [x] = before ++ y :: after) :
    (before = xs ∧ y = x ∧ after = []) ∨ ∃ rest, xs = before ++ y :: rest := by
  rcases List.eq_nil_or_concat after with rfl | ⟨rest, z, rfl⟩
  · obtain ⟨hbefore, hy⟩ := List.append_inj' h rfl
    exact .inl ⟨hbefore.symm, (List.singleton_inj.mp hy).symm, rfl⟩
  · rw [List.concat_eq_append, ← List.cons_append, ← List.append_assoc] at h
    exact .inr ⟨rest, (List.append_inj' h rfl).1⟩

/-- What each thread has done was according to the rule `ok`, and so will be the rest of its job.
Between two jobs `I` holds of its accesses. -/
structure Heeding (ok : List (Visit σ) → Visit σ → Prop) (I : List (Visit σ) → Prop)
    (c : Crew σ) : Prop where
  idle : ∀ k, c.jobs k = none → I (c.trail k)
  busy : ∀ k j, c.jobs k = some j → Heeds ok (c.trail k) j.rest fun _ h => I h
  heeded : ∀ k before v after, c.trail k = before ++ v :: after → ok before v

namespace Heeding

variable {ok : List (Visit σ) → Visit σ → Prop} {I : List (Visit σ) → Prop}
variable {company : Company σ} {c c' : Crew σ}

theorem empty (hi : I []) (config : Config) (env : σ.Env) :
    Heeding ok I (Crew.empty config env) where
  idle _ _ := hi
  busy k j hj := by cases hj
  heeded k before v after h := by simp [Crew.empty, Crew.trail] at h

theorem begun (h : Heeding ok I c) {i : ThreadId} {r : Routine σ} (hi : c.jobs i = none)
    (hact : Heeds ok (c.trail i) (r.act company) fun _ h => I h) :
    Heeding ok I { c with jobs := assign c.jobs i (some (Job.start company r)) } := by
  refine ⟨fun k hk => ?_, fun k l hl => ?_, h.heeded⟩
  · rcases assign_cases hk with ⟨rfl, -⟩ | ⟨-, hjob⟩
    · exact h.idle k hi
    · exact h.idle k hjob
  · rcases assign_cases hl with ⟨rfl, hjob⟩ | ⟨-, hjob⟩
    · cases hjob
      exact hact
    · exact h.busy k l hjob

theorem left (h : Heeding ok I c) {i : ThreadId} {j : Job σ} {o : Option Outcome}
    (hj : c.jobs i = some j) (hrest : j.rest = .done o) : Heeding ok I (c.leave i j o) := by
  refine ⟨fun k hk => ?_, fun k l hl => ?_, h.heeded⟩
  · rcases assign_cases hk with ⟨rfl, -⟩ | ⟨-, hjob⟩
    · have hend := h.busy k j hj
      rw [hrest] at hend
      exact hend
    · exact h.idle k hjob
  · rcases assign_cases hl with ⟨rfl, hjob⟩ | ⟨-, hjob⟩
    · cases hjob
    · exact h.busy k l hjob

theorem accessed (h : Heeding ok I c) {i : ThreadId} {j : Job σ} {x : Atom σ}
    {next : x.Answer → Act σ (Option Outcome)} (hj : c.jobs i = some j)
    (hrest : j.rest = .ask x next) : Heeding ok I (c.access i j x next) := by
  have hrule := h.busy i j hj
  rw [hrest] at hrule
  obtain ⟨hok, hgoes⟩ := hrule c.world
  have htrail : ∀ k, (c.access i j x next).trail k =
      if k = i then c.trail k ++ [⟨c.world, x⟩] else c.trail k := Crew.trail_snoc rfl
  refine ⟨fun k hk => ?_, fun k l hl => ?_, fun k before v after hsplit => ?_⟩
  · rcases assign_cases hk with ⟨-, hjob⟩ | ⟨hki, hjob⟩
    · cases hjob
    · rw [htrail, if_neg hki]
      exact h.idle k hjob
  · rcases assign_cases hl with ⟨rfl, hjob⟩ | ⟨hki, hjob⟩
    · cases hjob
      rw [htrail, if_pos rfl]
      exact hgoes
    · rw [htrail, if_neg hki]
      exact h.busy k l hjob
  · rw [htrail] at hsplit
    split at hsplit
    · rename_i hki
      subst hki
      rcases snoc_split hsplit with ⟨rfl, rfl, -⟩ | ⟨rest, hsplit⟩
      · exact hok
      · exact h.heeded k before v rest hsplit
    · exact h.heeded k before v after hsplit

theorem step (hact : ∀ (r : Routine σ) h, I h → Heeds ok h (r.act company) fun _ h => I h)
    (h : Heeding ok I c) {m : Move σ} (hm : c.step company m = some c') : Heeding ok I c' := by
  rcases Crew.step_cases hm with ⟨i, r, -, hi, rfl⟩ | ⟨i, j, o, -, hj, hrest, rfl⟩ |
    ⟨i, j, x, next, -, hj, hrest, -, rfl⟩
  · exact h.begun hi (hact r _ (h.idle i hi))
  · exact h.left hj hrest
  · exact h.accessed hj hrest

/-- The rule held for the access that a thread has just made. -/
theorem last (h : Heeding ok I c') {i : ThreadId} {v : Visit σ}
    (hp : c'.past = c.past ++ [(i, v)]) : ok (c.trail i) v :=
  h.heeded i (c.trail i) v [] (by rw [Crew.trail_snoc hp, if_pos rfl])

end Heeding

end ActorSystem
