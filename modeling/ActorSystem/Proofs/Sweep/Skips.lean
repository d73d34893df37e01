import ActorSystem.Proofs.Mute
import ActorSystem.Proofs.Sweep.Marching
import Mathlib.Data.List.Count

/-!
# Whom a handoff sweep misses

Between two visits of a handoff sweep other threads register actors and erase those that stopped in
their own sweeps. What the sweep keeps of the table is the number of the next slot, its `Pace`. An
erasure behind this slot changes nothing for it. An erasure before it moves the actors that are to
be visited by one slot: most of them are still ahead, but the one that was next is now in a slot
that counts as passed. It `Slips`, and the sweep does not come back to it.

The table is in order of registration, so the slot of an actor is its `rank`. `Placed` says where an
actor is, as seen from a sweep: its rank is smaller than the next slot exactly if the sweep has
reached it or it has slipped. Every access keeps this (`Placed.still`, `other`, `slot`, `claim`,
`erase`), and so does a run of the crew (`Crew.Sweeping.tracked`).

* `visited_iff_not_slipped`: whom a sweep visits that has seen the end of the table.
* `last_mute_is_missed`: an actor that is in the table throughout and is not visited.
-/

namespace ActorSystem

variable {σ : Signature} {config : Config} {company : Company σ} {c c' : Crew σ}
variable {i k : ThreadId} {a b : ActorRef} {n m : Nat} {p q : Pool σ} {w : World σ}

/-! ## Ranks -/

theorem countP_lt_of_getElem? {l : List Nat} (h : l.Pairwise (· < ·)) (ha : l[n]? = some a) :
    l.countP (· < a) = n := by
  induction l generalizing n with
  | nil => cases ha
  | cons b l ih =>
    obtain ⟨hfirst, hrest⟩ := List.pairwise_cons.mp h
    cases n with
    | zero =>
      obtain rfl : b = a := Option.some.inj ha
      rw [List.countP_eq_zero]
      intro d hd
      rw [decide_eq_true_iff, Nat.not_lt]
      rcases List.mem_cons.mp hd with rfl | hd
      · exact Nat.le_refl d
      · exact Nat.le_of_lt (hfirst d hd)
    | succ n =>
      have hn : l[n]? = some a := ha
      have hlt : b < a := hfirst a (List.mem_of_getElem? hn)
      rw [List.countP_cons, ih hrest hn, if_pos (decide_eq_true hlt)]

/-- How many actors of the table are older. In a table in order of registration this is the slot of
the actor. -/
def Pool.rank (p : Pool σ) (a : ActorRef) : Nat := p.table.countP (· < a)

/-- The actors of the table stand in order of registration. -/
def Pool.Ranked (p : Pool σ) : Prop := p.table.Pairwise (· < ·)

namespace Pool

theorem Ranked.nodup (h : p.Ranked) : p.table.Nodup := List.Pairwise.imp Nat.ne_of_lt h

theorem Ranked.rank_eq (h : p.Ranked) (ha : p.table[n]? = some a) : p.rank a = n :=
  countP_lt_of_getElem? h ha

theorem Ranked.slot (h : p.Ranked) (ha : a ∈ p.table) : p.table[p.rank a]? = some a := by
  obtain ⟨n, hn⟩ := List.mem_iff_getElem?.mp ha
  rwa [h.rank_eq hn]

theorem Ranked.lt_iff (h : p.Ranked) (ha : p.table[n]? = some a) (hb : p.table[m]? = some b) :
    n < m ↔ a < b := by
  obtain ⟨hn, rfl⟩ := List.getElem?_eq_some_iff.mp ha
  obtain ⟨hm, rfl⟩ := List.getElem?_eq_some_iff.mp hb
  have hpairs := List.pairwise_iff_getElem.mp h
  refine ⟨hpairs n m hn hm, fun hlt => ?_⟩
  rcases Nat.lt_trichotomy n m with hnm | rfl | hmn
  · exact hnm
  · exact absurd hlt (Nat.lt_irrefl _)
  · exact absurd hlt (Nat.lt_asymm (hpairs m n hm hn hmn))

theorem rank_erase (htable : q.table = p.table.erase b) (a : ActorRef) :
    q.rank a = p.rank a - if b ∈ p.table ∧ b < a then 1 else 0 := by
  rw [rank, htable, List.countP_erase]
  simp only [decide_eq_true_eq]
  rfl

theorem rank_enroll (htable : q.table = p.table ++ [b]) (ha : a ≤ b) : q.rank a = p.rank a := by
  rw [rank, htable, List.countP_append, rank]
  simp [ha]

theorem rank_pos (hb : b ∈ p.table) (hlt : b < a) : 0 < p.rank a :=
  List.countP_pos_iff.mpr ⟨b, hb, decide_eq_true hlt⟩

end Pool

/-! ## Slipping -/

/-- While `a` is the next actor of a sweep at this pace, somebody erases an actor that the sweep has
passed. So `a` moves into a slot that counts as passed. -/
def Visit.Slips (v : Visit σ) (p : Pace) (a : ActorRef) : Prop :=
  v.world.pool.table[p.passed]? = some a ∧
    ∃ b ∈ v.world.pool.table.take p.passed, v.atom = .erase b

/-- The accesses of thread `i` among these. -/
def madeBy (i : ThreadId) (past : List (ThreadId × Visit σ)) : List (Visit σ) :=
  past.filterMap fun e => if e.1 = i then some e.2 else none

/-- Since thread `i` began its job `j`, an access of another thread has made `a` slip. -/
def Crew.Slipped (c : Crew σ) (i : ThreadId) (j : Job σ) (a : ActorRef) : Prop :=
  ∃ before k v after done, c.past = before ++ (k, v) :: after ∧ k ≠ i ∧
    j.done = done ++ madeBy i after ∧ v.Slips (paceOf done) a

theorem madeBy_snoc (i k : ThreadId) (past : List (ThreadId × Visit σ)) (v : Visit σ) :
    madeBy i (past ++ [(k, v)]) = if k = i then madeBy i past ++ [v] else madeBy i past := by
  rw [madeBy, List.filterMap_append]
  by_cases hki : k = i
  · simp [hki, madeBy]
  · simp [hki, madeBy]

section

variable {j l : Job σ} {v : Visit σ}

theorem not_slips_of_start : ¬v.Slips (.ahead 0) a := by
  rintro ⟨-, b, hb, -⟩
  cases hb

theorem not_slipped_of_nil (hj : j.done = []) : ¬c.Slipped i j a := by
  rintro ⟨before, k, v, after, done, -, -, hdone, hslips⟩
  rw [hj] at hdone
  obtain ⟨rfl, -⟩ := List.append_eq_nil_iff.mp hdone.symm
  exact not_slips_of_start hslips

/-- What was slipping before the last access, and the last access. -/
theorem slipped_snoc (hp : c'.past = c.past ++ [(k, v)]) :
    c'.Slipped i j a ↔ (∃ before m u after done, c.past = before ++ (m, u) :: after ∧ m ≠ i ∧
      j.done = done ++ madeBy i (after ++ [(k, v)]) ∧ u.Slips (paceOf done) a) ∨
      (k ≠ i ∧ v.Slips (paceOf j.done) a) := by
  constructor
  · rintro ⟨before, m, u, after, done, hpast, hmi, hdone, hslips⟩
    rw [hp] at hpast
    rcases List.eq_nil_or_concat after with rfl | ⟨rest, e, rfl⟩
    · obtain ⟨-, hlast⟩ := List.append_inj' hpast rfl
      cases hlast
      rw [madeBy, List.filterMap_nil, List.append_nil] at hdone
      exact .inr ⟨hmi, hdone ▸ hslips⟩
    · rw [List.concat_eq_append, ← List.cons_append, ← List.append_assoc] at hpast
      obtain ⟨hbefore, hlast⟩ := List.append_inj' hpast rfl
      obtain rfl := List.singleton_inj.mp hlast
      rw [List.concat_eq_append] at hdone
      exact .inl ⟨before, m, u, rest, done, hbefore, hmi, hdone, hslips⟩
  · rintro (⟨before, m, u, after, done, hpast, hmi, hdone, hslips⟩ | ⟨hki, hslips⟩)
    · refine ⟨before, m, u, after ++ [(k, v)], done, ?_, hmi, hdone, hslips⟩
      rw [hp, hpast, List.append_assoc]
      rfl
    · exact ⟨c.past, k, v, [], j.done, hp, hki, (List.append_nil _).symm, hslips⟩

/-- By an access of its own the sweep makes nobody slip. -/
theorem slipped_own (hp : c'.past = c.past ++ [(i, v)]) (hl : l.done = j.done ++ [v]) :
    c'.Slipped i l a ↔ c.Slipped i j a := by
  have hmade : ∀ after, madeBy i (after ++ [(i, v)]) = madeBy i after ++ [v] := by
    intro after
    rw [madeBy_snoc, if_pos rfl]
  rw [slipped_snoc hp]
  constructor
  · rintro (⟨before, m, u, after, done, hpast, hmi, hdone, hslips⟩ | ⟨hne, -⟩)
    · rw [hl, hmade, ← List.append_assoc] at hdone
      exact ⟨before, m, u, after, done, hpast, hmi, List.append_cancel_right hdone, hslips⟩
    · exact absurd rfl hne
  · rintro ⟨before, m, u, after, done, hpast, hmi, hdone, hslips⟩
    refine .inl ⟨before, m, u, after, done, hpast, hmi, ?_, hslips⟩
    rw [hl, hmade, hdone, List.append_assoc]

/-- An access of another thread. -/
theorem slipped_other (hp : c'.past = c.past ++ [(k, v)]) (hki : k ≠ i) :
    c'.Slipped i j a ↔ c.Slipped i j a ∨ v.Slips (paceOf j.done) a := by
  have hmade : ∀ after, madeBy i (after ++ [(k, v)]) = madeBy i after := by
    intro after
    rw [madeBy_snoc, if_neg hki]
  rw [slipped_snoc hp]
  simp only [hmade, Crew.Slipped, ne_eq, hki, not_false_eq_true, true_and]

end

/-! ## The place of an actor -/

/-- The sweep with these accesses has visited `a`, or is about to. -/
def Reached (h : List (Visit σ)) (a : ActorRef) : Prop :=
  (∃ v ∈ h, v.atom = .claim a) ∨ ∃ n, paceOf h = .called n a

/-- Where `a` is, as seen from the job `j` of thread `i`: it counts as passed if it has been reached
or has slipped, and only then. -/
structure Placed (c : Crew σ) (i : ThreadId) (j : Job σ) (a : ActorRef) : Prop where
  once : ¬(Reached j.done a ∧ c.Slipped i j a)
  place : a ∈ c.world.pool.table →
    ((Reached j.done a ∨ c.Slipped i j a) ↔ c.world.pool.rank a < (paceOf j.done).passed)
  ended : ∀ n, paceOf j.done = .ended n → Reached j.done a ∨ c.Slipped i j a
  born : j.done ≠ [] → a < c.world.pool.actors.size

/-- The actor that is being visited is in a slot that counts as passed, if it is in any. -/
def Faced (c : Crew σ) (j : Job σ) : Prop :=
  ∀ n b, paceOf j.done = .called n b ∨ paceOf j.done = .visiting n b →
    b < c.world.pool.actors.size ∧ c.world.pool.rank b ≤ n

/-! ### One access -/

section

variable {x : Atom σ} {r : Pace} {j l : Job σ}

theorem ne_alter_of_allows (hx : r.allows x) (f : World σ → World σ) : x ≠ .alter f := by
  rintro rfl
  cases r <;> cases hx

theorem ne_eraseSick_of_allows (hx : r.allows x) : x ≠ .eraseSick := by
  rintro rfl
  cases r <;> cases hx

/-- At any pace the actors before `a` become fewer only when one of them is erased. -/
theorem rank_effect (hx : r.allows x) (ha : a < w.pool.actors.size) :
    ((∀ b ∈ w.pool.table, b < a → x ≠ .erase b) ∧ (x.effect w).pool.rank a = w.pool.rank a) ∨
      ∃ b ∈ w.pool.table, b < a ∧ x = .erase b ∧ (x.effect w).pool.rank a + 1 = w.pool.rank a := by
  have htable := x.table_effect w
  cases x with
  | alter f => exact absurd rfl (ne_alter_of_allows hx f)
  | eraseSick => exact absurd rfl (ne_eraseSick_of_allows hx)
  | enroll y => exact .inl ⟨nofun, Pool.rank_enroll htable (Nat.le_of_lt ha)⟩
  | erase b =>
    have hrank := Pool.rank_erase htable a
    by_cases hb : b ∈ w.pool.table ∧ b < a
    · rw [if_pos hb] at hrank
      have hpos := Pool.rank_pos hb.1 hb.2
      exact .inr ⟨b, hb.1, hb.2, rfl, by omega⟩
    · rw [if_neg hb] at hrank
      refine .inl ⟨?_, hrank⟩
      rintro d hd hlt ⟨⟩
      exact hb ⟨hd, hlt⟩
  | _ => exact .inl ⟨nofun, congrArg (List.countP _) htable⟩

theorem mem_of_effect (hx : r.allows x) (ha : a < w.pool.actors.size)
    (hin : a ∈ (x.effect w).pool.table) : a ∈ w.pool.table := by
  rw [Atom.table_effect] at hin
  cases x with
  | alter f => exact absurd rfl (ne_alter_of_allows hx f)
  | eraseSick => exact absurd rfl (ne_eraseSick_of_allows hx)
  | enroll y =>
    rcases List.mem_append.mp hin with hin | hnew
    · exact hin
    · exact absurd (List.mem_singleton.mp hnew) (Nat.ne_of_lt ha)
  | erase b => exact List.mem_of_mem_erase hin
  | _ => exact hin

theorem size_le_effect (hx : r.allows x) : w.pool.actors.size ≤ (x.effect w).pool.actors.size := by
  rw [Atom.size_effect]
  cases x with
  | alter f => exact absurd rfl (ne_alter_of_allows hx f)
  | enroll y => exact Nat.le_succ _
  | _ => exact Nat.le_refl _

/-- Who stands behind `b` slips by the erasure of `b` exactly if it is the next one. -/
theorem slips_iff (h : w.pool.Ranked) (ha : a ∈ w.pool.table) (hb : b ∈ w.pool.table)
    (hlt : b < a) : (⟨w, .erase b⟩ : Visit σ).Slips r a ↔ w.pool.rank a = r.passed := by
  have hslot := h.slot ha
  have hslot' := h.slot hb
  constructor
  · rintro ⟨hnext, -⟩
    exact h.rank_eq hnext
  · intro hrank
    rw [hrank] at hslot
    have hearlier : w.pool.rank b < r.passed := (h.lt_iff hslot' hslot).mpr hlt
    refine ⟨hslot, b, ?_, rfl⟩
    exact List.mem_of_getElem? ((List.getElem?_take_of_lt hearlier).trans hslot')

/-! ### The place of an actor after an access -/

theorem not_reached_nil : ¬Reached ([] : List (Visit σ)) a := by
  rintro (⟨v, hv, -⟩ | ⟨n, hn⟩)
  · cases hv
  · cases hn

theorem reached_snoc {h : List (Visit σ)} {v : Visit σ} :
    Reached (h ++ [v]) a ↔ ((∃ u ∈ h, u.atom = .claim a) ∨ v.atom = .claim a) ∨
      ∃ n, (paceOf h).visit v = .called n a := by
  simp only [Reached, paceOf_snoc, List.mem_append, List.mem_singleton, or_and_right, exists_or,
    exists_eq_left]

namespace Placed

theorem of_nil (hj : j.done = []) : Placed c i j a where
  once h := not_reached_nil (hj ▸ h.1)
  place _ := by
    rw [hj]
    refine ⟨fun h => ?_, fun h => absurd h (Nat.not_lt_zero _)⟩
    rcases h with hreached | hslipped
    · exact absurd hreached not_reached_nil
    · exact absurd hslipped (not_slipped_of_nil hj)
  ended n hn := by
    rw [hj] at hn
    cases hn
  born hne := absurd hj hne

/-- An access that does not move the actor as seen from the sweep. -/
theorem still (h : Placed c i j a) (hreached : Reached l.done a ↔ Reached j.done a)
    (hslipped : c'.Slipped i l a ↔ c.Slipped i j a)
    (hpassed : (paceOf l.done).passed = (paceOf j.done).passed)
    (hended : ∀ n, paceOf l.done = .ended n → paceOf j.done = .ended n)
    (hmem : a ∈ c'.world.pool.table → a ∈ c.world.pool.table)
    (hrank : c'.world.pool.rank a = c.world.pool.rank a)
    (hborn : l.done ≠ [] → a < c'.world.pool.actors.size) : Placed c' i l a where
  once := by
    rw [hreached, hslipped]
    exact h.once
  place hin := by
    rw [hreached, hslipped, hpassed, hrank]
    exact h.place (hmem hin)
  ended n hn := by
    rw [hreached, hslipped]
    exact h.ended n (hended n hn)
  born := hborn

/-- An access of another thread, which keeps pace, too. -/
theorem other (h : Placed c i j a) (hranked : c.world.pool.Ranked) (hne : j.done ≠ [])
    (hx : r.allows x) (hki : k ≠ i) (hw : c'.world = x.effect c.world)
    (hp : c'.past = c.past ++ [(k, ⟨c.world, x⟩)]) : Placed c' i j a := by
  have hborn := h.born hne
  have hborn' : a < c'.world.pool.actors.size := hw ▸ Nat.lt_of_lt_of_le hborn (size_le_effect hx)
  have hmem : a ∈ c'.world.pool.table → a ∈ c.world.pool.table := by
    rw [hw]
    exact mem_of_effect hx hborn
  have hslipped := slipped_other (a := a) (j := j) hp hki
  rcases rank_effect hx hborn with ⟨hnone, hrank⟩ | ⟨b, hb, hlt, rfl, hrank⟩
  · have hnot : ¬(⟨c.world, x⟩ : Visit σ).Slips (paceOf j.done) a := by
      rintro ⟨hnext, b, hb, hx⟩
      have hin := List.mem_of_mem_take hb
      refine hnone b hin ?_ hx
      obtain ⟨n, hn⟩ := List.mem_iff_getElem?.mp hb
      rw [List.getElem?_take] at hn
      split at hn
      · rename_i hearlier
        exact (hranked.lt_iff hn hnext).mp hearlier
      · cases hn
    rw [or_iff_left hnot] at hslipped
    exact h.still Iff.rfl hslipped rfl (fun _ hn => hn) hmem (hw ▸ hrank) fun _ => hborn'
  · rw [← hw] at hrank
    refine ⟨fun hboth => ?_, fun hin => ?_, fun n hn => ?_, fun _ => hborn'⟩
    · rcases hslipped.mp hboth.2 with hold | hnow
      · exact h.once ⟨hboth.1, hold⟩
      · have hin : a ∈ c.world.pool.table := List.mem_of_getElem? hnow.1
        have hplace := (h.place hin).mp (.inl hboth.1)
        rw [(slips_iff hranked hin hb hlt).mp hnow] at hplace
        exact Nat.lt_irrefl _ hplace
    · have hplace := h.place (hmem hin)
      rw [hslipped, ← or_assoc, hplace, slips_iff hranked (hmem hin) hb hlt]
      omega
    · exact (h.ended n hn).imp_right fun hold => hslipped.mpr (.inl hold)

section

variable (h : Placed c i j a) (hranked : c.world.pool.Ranked) (hin : a ∈ c.world.pool.table)
variable (hborn : a < c.world.pool.actors.size) (hw : c'.world = x.effect c.world)
variable (hp : c'.past = c.past ++ [(i, ⟨c.world, x⟩)]) (hl : l.done = j.done ++ [⟨c.world, x⟩])

include h hin hborn hw hp hl

theorem steady (hx : x.steady) : Placed c' i l a := by
  have hallows : (Pace.ahead 0).allows x := Pace.allows_steady rfl hx
  have hsame : paceOf l.done = paceOf j.done := by rw [hl, paceOf_snoc, Pace.visit_steady hx]
  have hclaim : x ≠ .claim a := by
    rintro rfl
    cases hx
  have hreached : Reached l.done a ↔ Reached j.done a := by
    rw [hl, reached_snoc, Pace.visit_steady hx, or_iff_left hclaim]
    rfl
  refine h.still hreached (slipped_own hp hl) (congrArg Pace.passed hsame)
    (fun n hn => hsame ▸ hn) (fun _ => hin) ?_ fun _ =>
      hw ▸ Nat.lt_of_lt_of_le hborn (size_le_effect hallows)
  rcases rank_effect hallows hborn with ⟨-, hrank⟩ | ⟨b, -, -, rfl, -⟩
  · rw [hw, hrank]
  · cases hx

include hranked

theorem slot (hx : x = .slot m) (hm : (paceOf j.done).Heading m) : Placed c' i l a := by
  subst hx
  have hstill : c'.world = c.world := hw
  have hborn' : a < c'.world.pool.actors.size := hstill ▸ hborn
  have hslipped : c'.Slipped i l a ↔ c.Slipped i j a := slipped_own hp hl
  have hplace := h.place hin
  rw [Pace.passed_of_heading hm] at hplace
  have hnocall : ¬∃ n, paceOf j.done = .called n a := by
    rintro ⟨n, hn⟩
    rw [hn] at hm
    exact hm
  have hclaims : Reached j.done a ↔ ∃ v ∈ j.done, v.atom = .claim a := or_iff_left hnocall
  have hclaim : (.slot m : Atom σ) ≠ .claim a := nofun
  have hslot := hranked.slot hin
  have hpace : paceOf l.done = _ := (hl ▸ paceOf_snoc _ _).trans (Pace.visit_slot _ _ _)
  cases hfound : c.world.pool.table[m]? with
  | none =>
    rw [hfound] at hpace
    have hreached : Reached l.done a ↔ Reached j.done a := by
      rw [hclaims, hl, reached_snoc, or_iff_left hclaim, ← paceOf_snoc, ← hl, hpace]
      exact or_iff_left nofun
    have hlast : c.world.pool.rank a < m := by
      obtain ⟨hlength, -⟩ := List.getElem?_eq_some_iff.mp hslot
      exact Nat.lt_of_lt_of_le hlength (List.getElem?_eq_none_iff.mp hfound)
    refine ⟨?_, fun _ => ?_, fun _ _ => ?_, fun _ => hborn'⟩
    · rw [hreached, hslipped]
      exact h.once
    · rw [hreached, hslipped, hpace, hstill]
      exact hplace
    · rw [hreached, hslipped]
      exact hplace.mpr hlast
  | some b =>
    rw [hfound] at hpace
    have hnext : b = a ↔ c.world.pool.rank a = m := by
      constructor
      · rintro rfl
        exact hranked.rank_eq hfound
      · intro hrank
        rw [hrank, hfound] at hslot
        exact Option.some.inj hslot
    have hreached : Reached l.done a ↔ Reached j.done a ∨ b = a := by
      rw [hclaims, hl, reached_snoc, or_iff_left hclaim, ← paceOf_snoc, ← hl, hpace]
      simp
    refine ⟨?_, fun _ => ?_, fun k hk => ?_, fun _ => hborn'⟩
    · rintro ⟨hr, hs⟩
      rw [hslipped] at hs
      rcases hreached.mp hr with hr | hb
      · exact h.once ⟨hr, hs⟩
      · have hbehind := hplace.mp (.inr hs)
        rw [hnext.mp hb] at hbehind
        exact Nat.lt_irrefl _ hbehind
    · rw [hreached, hslipped, hpace, hstill, or_right_comm, hplace, hnext]
      exact Nat.lt_succ_iff_lt_or_eq.symm
    · rw [hpace] at hk
      cases hk

omit hranked

theorem claim (hx : x = .claim b) (hcalled : paceOf j.done = .called n b) : Placed c' i l a := by
  subst hx
  have hallows : (Pace.called n b).allows (.claim b : Atom σ) := rfl
  have hpace : paceOf l.done = .visiting n b := by
    rw [hl, paceOf_snoc, hcalled]
    rfl
  have hreached : Reached l.done a ↔ Reached j.done a := by
    rw [hl, reached_snoc, ← paceOf_snoc, ← hl, hpace, Reached, hcalled]
    simp
  refine h.still hreached (slipped_own hp hl) ?_ ?_ (fun _ => hin) ?_ fun _ =>
    hw ▸ Nat.lt_of_lt_of_le hborn (size_le_effect hallows)
  · rw [hpace, hcalled]
    rfl
  · intro k hk
    rw [hpace] at hk
    cases hk
  · rcases rank_effect hallows hborn with ⟨-, hrank⟩ | ⟨d, -, -, hd, -⟩
    · rw [hw, hrank]
    · cases hd

include hranked

/-- The actor that has been visited, and that is erased, was in a slot before this pace. -/
theorem erase (hx : x = .erase b) (hvisiting : paceOf j.done = .visiting n b)
    (hfaced : Faced c j) (hb : b ∈ c.world.pool.table) : Placed c' i l a := by
  subst hx
  have hallows : (Pace.visiting n b).allows (.erase b : Atom σ) := rfl
  have hborn' : a < c'.world.pool.actors.size :=
    hw ▸ Nat.lt_of_lt_of_le hborn (size_le_effect hallows)
  have hslipped : c'.Slipped i l a ↔ c.Slipped i j a := slipped_own hp hl
  have hplace := h.place hin
  rw [hvisiting] at hplace
  have hpace : paceOf l.done = .ahead n := by
    rw [hl, paceOf_snoc, hvisiting]
    rfl
  have hclaim : (.erase b : Atom σ) ≠ .claim a := nofun
  have hreached : Reached l.done a ↔ Reached j.done a := by
    rw [hl, reached_snoc, or_iff_left hclaim, ← paceOf_snoc, ← hl, hpace, Reached, hvisiting]
    simp
  refine ⟨?_, fun hstays => ?_, fun k hk => ?_, fun _ => hborn'⟩
  · rw [hreached, hslipped]
    exact h.once
  · have hbehind : c.world.pool.rank b ≤ n := (hfaced n b (.inr hvisiting)).2
    have hab : a ≠ b := by
      rintro rfl
      rw [hw, Atom.table_effect] at hstays
      exact (hranked.nodup.mem_erase_iff.mp hstays).1 rfl
    rw [hreached, hslipped, hplace, hpace, hw]
    change c.world.pool.rank a < n + 1 ↔ _ < n
    rcases rank_effect hallows hborn with ⟨hnone, hsame⟩ | ⟨d, -, -, -, hless⟩
    · have hlt : a < b := by
        rcases Nat.lt_or_gt_of_ne hab with hlt | hgt
        · exact hlt
        · exact absurd rfl (hnone b hb hgt)
      have hearlier := (hranked.lt_iff (hranked.slot hin) (hranked.slot hb)).mpr hlt
      omega
    · omega
  · rw [hpace] at hk
    cases hk

end

end Placed

/-! ### The actor that is being visited -/

namespace Faced

theorem of_nil (hj : j.done = []) : Faced c j := by
  intro n b hb
  rw [hj] at hb
  rcases hb with hb | hb <;> cases hb

theorem moved (h : Faced c j) (hx : r.allows x) (hw : c'.world = x.effect c.world)
    (hpace : paceOf l.done = paceOf j.done) : Faced c' l := by
  intro n b hb
  rw [hpace] at hb
  obtain ⟨hborn, hrank⟩ := h n b hb
  rw [hw]
  refine ⟨Nat.lt_of_lt_of_le hborn (size_le_effect hx), ?_⟩
  rcases rank_effect hx hborn with ⟨-, hsame⟩ | ⟨d, -, -, -, hless⟩
  · rw [hsame]
    exact hrank
  · omega

theorem own (h : Faced c j) (hranked : c.world.pool.Ranked)
    (hborn : ∀ b ∈ c.world.pool.table, b < c.world.pool.actors.size)
    (hx : (paceOf j.done).allows x) (hw : c'.world = x.effect c.world)
    (hl : l.done = j.done ++ [⟨c.world, x⟩]) : Faced c' l := by
  have hpace : paceOf l.done = (paceOf j.done).visit ⟨c.world, x⟩ := by rw [hl, paceOf_snoc]
  rcases Pace.allows_cases hx with ⟨hsteady, -⟩ | ⟨m, rfl, -⟩ | ⟨n, b, hcalled, rfl⟩ |
    ⟨n, b, hvisiting, rfl⟩
  · exact h.moved hx hw (hpace.trans (Pace.visit_steady hsteady))
  · rw [Pace.visit_slot] at hpace
    intro n b hb
    have hstill : c'.world = c.world := hw
    cases hfound : c.world.pool.table[m]? with
    | none =>
      rw [hpace, hfound] at hb
      rcases hb with hb | hb <;> cases hb
    | some d =>
      rw [hpace, hfound] at hb
      rcases hb with hb | hb
      · cases hb
        rw [hstill, hranked.rank_eq hfound]
        exact ⟨hborn b (List.mem_of_getElem? hfound), Nat.le_refl _⟩
      · cases hb
  · have hmoved : Faced c' j := h.moved hx hw rfl
    intro k d hd
    rw [hpace, hcalled] at hd
    rcases hd with hd | hd
    · cases hd
    · cases hd
      exact hmoved n b (.inl hcalled)
  · intro k d hd
    rw [hpace, hvisiting] at hd
    rcases hd with hd | hd <;> cases hd

end Faced

end

/-! ## Whom a sweep misses -/

/-- What a thread knows about the actor in front of it, and where every actor is that has been in
the table all along. -/
structure Tracked (c : Crew σ) (i : ThreadId) (j : Job σ) : Prop where
  faced : Faced c j
  placed : ∀ a, (∀ v ∈ j.done, a ∈ v.world.pool.table) → Placed c i j a

namespace Crew.Sweeping

variable {env : σ.Env}

theorem tracked (hc : company.Civil) (hs : config.sweep = .handoff)
    (h : Sweeping company config env c) : ∀ i j, c.jobs i = some j → Tracked c i j := by
  refine h.induction (P := fun c => ∀ i j, c.jobs i = some j → Tracked c i j) ?_ ?_
  · intro i j hj
    cases hj
  intro c c' m hsweeping hm h hstep i l hl
  obtain ⟨hsane, htabled⟩ := hsweeping.tabled hc
  have hranked : c.world.pool.Ranked := List.pairwise_lt_range.sublist htabled.kept.ordered
  have hborn : ∀ a ∈ c.world.pool.table, a < c.world.pool.actors.size :=
    fun a ha => List.mem_range.mp (htabled.kept.ordered.subset ha)
  have hmarching := hsweeping.marching hc hs
  rcases job_cases hstep hl with ⟨r, rfl, rfl, -⟩ | ⟨j, x, next, hj, hrest, rfl, hw, hp⟩ |
    ⟨hold, ⟨hw, hp⟩ | ⟨k, j, x, next, hki, hj, hrest, hw, hp⟩⟩
  · exact ⟨.of_nil rfl, fun a _ => .of_nil rfl⟩
  · -- the thread itself
    obtain ⟨hfaced, hplaced⟩ := h i j hj
    have hx := (hmarching i j hj).allows hrest c.world
    refine ⟨hfaced.own hranked hborn hx hw rfl, fun a hin => ?_⟩
    have hlisted : a ∈ c.world.pool.table :=
      hin ⟨c.world, x⟩ (List.mem_append_right _ List.mem_cons_self)
    have hold := hplaced a fun v hv => hin v (List.mem_append_left _ hv)
    rcases Pace.allows_cases hx with ⟨hsteady, -⟩ | ⟨m, hslot, hm⟩ | ⟨n, b, hcalled, hclaim⟩ |
      ⟨n, b, hvisiting, herase⟩
    · exact hold.steady hlisted (hborn a hlisted) hw hp rfl hsteady
    · exact hold.slot hranked hlisted (hborn a hlisted) hw hp rfl hslot hm
    · exact hold.claim hlisted (hborn a hlisted) hw hp rfl hclaim hcalled
    · refine hold.erase hranked hlisted (hborn a hlisted) hw hp rfl herase hvisiting hfaced ?_
      have hobeys := hsane.orderly.obeys i j hj
      rw [hrest] at hobeys
      refine hsweeping.owed hc hs i b ?_
      rw [Crew.stage_of_job hj]
      exact hobeys.1.erase b herase
  · -- nobody does anything
    obtain ⟨hfaced, hplaced⟩ := h i l hold
    refine ⟨fun n b hb => hw ▸ hfaced n b hb, fun a hin => ?_⟩
    have hslipped : c'.Slipped i l a ↔ c.Slipped i l a := by
      rw [Slipped, hp]
      rfl
    have hplaced := hplaced a hin
    exact hplaced.still Iff.rfl hslipped rfl (fun _ hn => hn) (fun ha => hw ▸ ha) (by rw [hw])
      fun hne => hw ▸ hplaced.born hne
  · -- another thread
    obtain ⟨hfaced, hplaced⟩ := h i l hold
    have hx := (hmarching k j hj).allows hrest c.world
    refine ⟨hfaced.moved hx hw rfl, fun a hin => ?_⟩
    by_cases hnil : l.done = []
    · exact .of_nil hnil
    · exact (hplaced a hin).other hranked hnil hx hki hw hp

end Crew.Sweeping

/-- However many threads sweep and register actors beside it: when a handoff sweep has seen the end
of the table, it has visited an actor that was in the table all along exactly if this has not
slipped past it. -/
theorem visited_iff_not_slipped (company : Company σ) (hc : company.Civil) (config : Config)
    (hs : config.sweep = .handoff) (env : σ.Env) (ms : List (Move σ))
    (hms : ∀ i r, .begin i r ∈ ms → r.isDrain = false) (c : Crew σ)
    (hplay : (Crew.empty config env).play company ms = some c) (i : ThreadId) (j : Job σ)
    (hj : c.jobs i = some j) (n : Nat) (hend : paceOf j.done = .ended n) (a : ActorRef)
    (ha : ∀ v ∈ j.done, a ∈ v.world.pool.table) :
    (∃ v ∈ j.done, v.atom = .claim a) ↔ ¬c.Slipped i j a := by
  have hsweeping : Crew.Sweeping company config env c := ⟨ms, hms, hplay⟩
  have hplaced := (hsweeping.tracked hc hs i j hj).placed a ha
  have hnocall : ¬∃ n, paceOf j.done = .called n a := by
    rintro ⟨k, hk⟩
    rw [hend] at hk
    cases hk
  have hvisited : Reached j.done a ↔ ∃ v ∈ j.done, v.atom = .claim a := or_iff_left hnocall
  rw [← hvisited]
  refine ⟨fun hreached hslipped => hplaced.once ⟨hreached, hslipped⟩, fun hnot => ?_⟩
  exact (hplaced.ended n hend).resolve_right hnot

/-! ## Two sweeps that overlap -/

/-- Three mutes are registered, and a sweep has passed the first one and is about to be done with
the second when the first one gets a poison message. Another sweep stops and erases it, and the
sweep before it goes on and sees the end of the table. -/
def Mute.overlapping : List (Move Mute.signature) :=
  [.begin 0 Mute.register] ++ List.replicate 12 (.go 0) ++
    [.begin 0 Mute.register] ++ List.replicate 12 (.go 0) ++
    [.begin 0 Mute.register] ++ List.replicate 12 (.go 0) ++
    [.begin 1 (.sweep 0 9)] ++ List.replicate 12 (.go 1) ++
    [.begin 0 (Mute.post ⟨1⟩ .poison)] ++ List.replicate 3 (.go 0) ++
    [.begin 2 (.sweep 1 9)] ++ List.replicate 23 (.go 2) ++ List.replicate 3 (.go 1)

theorem Mute.overlapping_sweeps : ∀ i r, .begin i r ∈ Mute.overlapping → r.isDrain = false := by
  intro i r hr
  simp only [Mute.overlapping, Mute.register, Mute.post, List.mem_append, List.mem_cons,
    List.mem_replicate, List.not_mem_nil, Move.begin.injEq, reduceCtorEq, and_false, or_false] at hr
  rcases hr with ((((⟨-, rfl⟩ | ⟨-, rfl⟩) | ⟨-, rfl⟩) | ⟨-, rfl⟩) | ⟨-, rfl⟩) | ⟨-, rfl⟩ <;> rfl

/-- Whether a sweep with these accesses has visited the actor. -/
def visits (h : List (Visit σ)) (a : ActorRef) : Bool :=
  h.any fun v => match v.atom with
    | .claim b => b = a
    | _ => false

theorem visits_iff {h : List (Visit σ)} : visits h a ↔ ∃ v ∈ h, v.atom = .claim a := by
  rw [visits, List.any_eq_true]
  refine exists_congr fun v => and_congr_right fun _ => ?_
  obtain ⟨w, x⟩ := v
  cases x <;> simp

theorem Mute.overlapping_ends : ∃ c j,
    (Crew.empty { sweep := .handoff } ()).play Mute.company Mute.overlapping = some c ∧
      c.jobs 1 = some j ∧ paceOf j.done = .ended 2 ∧
      (∀ v ∈ j.done, 1 ∈ v.world.pool.table ∧ 2 ∈ v.world.pool.table) ∧
      visits j.done 1 = true ∧ visits j.done 2 = false := by
  have hrun : ((Crew.empty { sweep := .handoff } ()).play Mute.company Mute.overlapping).map
      (fun c => (c.jobs 1).map fun j => (paceOf j.done,
        j.done.all fun v => 1 ∈ v.world.pool.table ∧ 2 ∈ v.world.pool.table,
        visits j.done 1, visits j.done 2)) = some (some (.ended 2, true, true, false)) := by
    decide +kernel
  obtain ⟨c, hplay, hc⟩ := Option.map_eq_some_iff.mp hrun
  obtain ⟨j, hj, hdone⟩ := Option.map_eq_some_iff.mp hc
  simp only [Prod.mk.injEq, List.all_eq_true, decide_eq_true_eq] at hdone
  obtain ⟨hend, hlisted, hfirst, hsecond⟩ := hdone
  exact ⟨c, j, hplay, hj, hend, hlisted, hfirst, hsecond⟩

/-- The second mute does not slip, although the one before it is erased. -/
theorem overtaken_sweep_visits : ∃ c j,
    (Crew.empty { sweep := .handoff } ()).play Mute.company Mute.overlapping = some c ∧
      c.jobs 1 = some j ∧ (∃ v ∈ j.done, v.atom = .claim 1) ∧ ¬c.Slipped 1 j 1 := by
  obtain ⟨c, j, hplay, hj, hend, hlisted, hfirst, -⟩ := Mute.overlapping_ends
  have hvisited := visits_iff.mp hfirst
  refine ⟨c, j, hplay, hj, hvisited, ?_⟩
  exact (visited_iff_not_slipped Mute.company nofun { sweep := .handoff } rfl () Mute.overlapping
    Mute.overlapping_sweeps c hplay 1 j hj 2 hend 1 fun v hv => (hlisted v hv).1).mp hvisited

/-- The third mute is in the table from the beginning of the sweep to its end, and the sweep does
not visit it. -/
theorem last_mute_is_missed : ∃ c j,
    (Crew.empty { sweep := .handoff } ()).play Mute.company Mute.overlapping = some c ∧
      c.jobs 1 = some j ∧ paceOf j.done = .ended 2 ∧
      (∀ v ∈ j.done, 2 ∈ v.world.pool.table) ∧ ¬∃ v ∈ j.done, v.atom = .claim 2 := by
  obtain ⟨c, j, hplay, hj, hend, hlisted, -, hsecond⟩ := Mute.overlapping_ends
  refine ⟨c, j, hplay, hj, hend, fun v hv => (hlisted v hv).2, fun hvisited => ?_⟩
  rw [visits_iff.mpr hvisited] at hsecond
  cases hsecond

end ActorSystem
