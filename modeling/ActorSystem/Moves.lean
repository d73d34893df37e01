/-!
# Moves

A machine that somebody else drives: a step function says for each move what it leads to, or
that the move cannot be made. A list of moves is one way in which the machine may run, and with
the moves of many threads it is one interleaving of them.

* `play_trans`: a run goes on from where another one ended.
* `play_along`: the induction over a run of which something is known.
* `play_induction`: what every move keeps, every run keeps.
-/

namespace ActorSystem.Moves

variable {S M : Type} {step : S → M → Option S} {r s s' : S} {m : M} {ms ns : List M}

/-- The state after these moves in this order, or nothing if one of them cannot be made. -/
def play (step : S → M → Option S) (s : S) : List M → Option S
  | [] => some s
  | m :: ms => (step s m).bind fun s => play step s ms

/-! ## One run after another -/

theorem play_cons : play step s (m :: ms) = some s' ↔
    ∃ r, step s m = some r ∧ play step r ms = some s' := Option.bind_eq_some_iff

theorem play_append (ms ns : List M) :
    play step s (ms ++ ns) = (play step s ms).bind fun s => play step s ns := by
  induction ms generalizing s with
  | nil => rfl
  | cons m ms ih =>
    simp only [List.cons_append, play, Option.bind_assoc]
    congr 1
    funext r
    exact ih

theorem play_trans (h : play step s ms = some r) (hgoes : play step r ns = some s') :
    play step s (ms ++ ns) = some s' := by
  rw [play_append, h]
  exact hgoes

theorem play_split (h : play step s (ms ++ ns) = some s') :
    ∃ r, play step s ms = some r ∧ play step r ns = some s' := by
  rw [play_append] at h
  exact Option.bind_eq_some_iff.mp h

theorem play_snoc : play step s (ms ++ [m]) = some s' ↔
    ∃ r, play step s ms = some r ∧ step r m = some s' := by
  rw [play_append, Option.bind_eq_some_iff]
  simp only [play, Option.bind_eq_some_iff, Option.some.injEq, exists_eq_right]

/-! ## Induction over a run -/

/-- What every move of this run keeps, when it is made, is kept. -/
theorem play_along {P : S → Prop}
    (hstep : ∀ k m r r', ms[k]? = some m → play step s (ms.take k) = some r →
      step r m = some r' → P r → P r') (hs : P s) (hplay : play step s ms = some s') : P s' := by
  induction ms generalizing s with
  | nil =>
    cases hplay
    exact hs
  | cons m ms ih =>
    obtain ⟨r, hr, hplay⟩ := play_cons.mp hplay
    refine ih (fun k n q q' hn hq => hstep (k + 1) n q q' hn ?_) (hstep 0 m s r rfl rfl hr hs) hplay
    rw [List.take_succ_cons]
    exact play_cons.mpr ⟨r, hr, hq⟩

/-- When all moves of the run are of one kind. -/
theorem play_induction_of {P : S → Prop} {A : M → Prop}
    (hstep : ∀ s s' m, A m → P s → step s m = some s' → P s') (hms : ∀ m ∈ ms, A m) (hs : P s)
    (hplay : play step s ms = some s') : P s' :=
  play_along (fun _ m r r' hm _ hr hp => hstep r r' m (hms m (List.mem_of_getElem? hm)) hp hr) hs
    hplay

theorem play_induction {P : S → Prop} (hstep : ∀ s s' m, P s → step s m = some s' → P s')
    (hs : P s) (hplay : play step s ms = some s') : P s' :=
  play_along (fun _ m r r' _ _ hr hp => hstep r r' m hp hr) hs hplay

end ActorSystem.Moves
