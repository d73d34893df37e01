import ActorSystem.Lock.Guard
import ActorSystem.Proofs.Lock.Balance

/-!
# Guards and their lock

Whatever the threads do with their guards, in whatever order, the lock counts the guards that are
held, whoever sleeps at it sleeps for what its thread asked, and a guard that is held knows the
value.

* `Sound`: the invariant.
* `Sound.alone`: a writer who holds a guard is alone.
* `Sound.step`, `Sound.play`: every move keeps the invariant.
-/

namespace ActorSystem.Guarded

variable {τ α : Type} [DecidableEq τ] {s s' : Guarded τ α} {t : τ} {g : Nat} {x : Guard τ α}

/-! ## Guards -/

/-- The number of guards with this kind of access that are held. -/
def count (s : Guarded τ α) (access : Access) : Nat := s.guards.countP (·.isHeld access)

theorem isHeld_iff {access : Access} : x.isHeld access ↔ x.access = access ∧ x.hold = .held := by
  simp [Guard.isHeld]

theorem held?_eq_some {access : Access} (h : s.held? g access = some x) :
    s.guards[g]? = some x ∧ x.access = access ∧ x.hold = .held := by
  obtain ⟨hx, hheld⟩ := Option.filter_eq_some_iff.mp h
  exact ⟨hx, isHeld_iff.mp hheld⟩

theorem getElem?_modify_of_some {β : Type} {xs : Array β} {y : β} (hy : xs[g]? = some y) (f : β → β)
    (k : Nat) : (xs.modify g f)[k]? = if g = k then some (f y) else xs[k]? := by
  rw [Array.getElem?_modify]
  split
  · rename_i hgk
    rw [← hgk, hy]
    rfl
  · rfl

theorem countP_modify {β : Type} {xs : Array β} {y : β} (hy : xs[g]? = some y) (f : β → β)
    (p : β → Bool) : (xs.modify g f).countP p + (if p y then 1 else 0) =
      xs.countP p + if p (f y) then 1 else 0 := by
  obtain ⟨hlt, rfl⟩ := Array.getElem?_eq_some_iff.mp hy
  have hset : xs.modify g f = xs.set g (f xs[g]) := by
    ext i hi hi'
    · simp
    · simp only [Array.getElem_modify, Array.getElem_set]
      split
      · rename_i hgi
        subst hgi
        rfl
      · rfl
  have hle := Array.boole_getElem_le_countP (p := p) hlt
  rw [hset, Array.countP_set hlt]
  omega

/-- Whoever is neither here nor there is not counted. -/
theorem count_setHold {access : Access} (hx : s.guards[g]? = some x) (haccess : x.access = access)
    (hheld : x.hold = .held) (hold : Hold τ) (hout : hold ≠ .held) (a : Access) :
    s.count a = (s.setHold g hold).count a + if access = a then 1 else 0 := by
  have hmodify := countP_modify hx (fun x => { x with hold }) (·.isHeld a)
  simp only [isHeld_iff, haccess, hheld, hout, and_true, and_false, if_false] at hmodify
  exact hmodify.symm

omit [DecidableEq τ] in
theorem getElem?_setHold (hold : Hold τ) (k : Nat) : (s.setHold g hold).guards[k]? =
    if g = k then s.guards[k]?.map fun x => { x with hold } else s.guards[k]? :=
  Array.getElem?_modify

/-- Thread `t` has stepped out with guard `g`. -/
def Out (s : Guarded τ α) (g : Nat) (t : τ) : Prop :=
  ∃ x : Guard τ α, s.guards[g]? = some x ∧ x.hold = .out t

omit [DecidableEq τ] in
theorem out_setHold (hx : s.guards[g]? = some x) (hold : Hold τ) (k : Nat) (u : τ) :
    (s.setHold g hold).Out k u ↔ if g = k then hold = .out u else s.Out k u := by
  unfold Out
  rw [getElem?_setHold]
  split
  · rename_i hgk
    subst hgk
    simp [hx]
  · rfl

omit [DecidableEq τ] in
theorem not_out_of_held (hx : s.guards[g]? = some x) (hheld : x.hold = .held) : ¬ s.Out g t := by
  rintro ⟨y, hy, hout⟩
  rw [hx] at hy
  cases hy
  rw [hheld] at hout
  cases hout

/-! ## Threads -/

/-- What the sleeping threads wish for. -/
def wishes (s : Guarded τ α) (t : τ) : Option Access := (s.visitors t).wish.map Wish.access

theorem visitors_setVisitor (v : Visitor) (u : τ) :
    (s.setVisitor t v).visitors u = if u = t then v else s.visitors u :=
  Function.update_apply _ _ _ _

theorem wishes_setVisitor (v : Visitor) :
    (s.setVisitor t v).wishes = Function.update s.wishes t (v.wish.map Wish.access) := by
  funext u
  rw [wishes, visitors_setVisitor, Function.update_apply]
  split <;> rfl

/-! ## The invariant -/

structure Sound (s : Guarded τ α) : Prop where
  balanced : s.lock.Balanced (s.count .read) (s.count .write)
  slept : s.lock.Slept s.wishes
  view : ∀ (g : Nat) (x : Guard τ α), s.guards[g]? = some x → x.hold = .held → x.view = s.value
  reads : ∀ (g : Nat) (t : τ) (x : Guard τ α), s.guards[g]? = some x → x.hold = .out t →
    x.access = .read
  /-- Who is inside a call has stepped out with the guard of this call, and nobody else has. -/
  outside : ∀ g t, s.Out g t ↔ g ∈ (s.visitors t).inside
  nested : ∀ t, (s.visitors t).inside.Nodup
  /-- Who wants to step back in does so with the guard of the innermost call. -/
  back : ∀ t g, (s.visitors t).wish = some (.back g) → (s.visitors t).inside.head? = some g

namespace Sound

theorem new (value : α) : (new value : Guarded τ α).Sound where
  balanced := ⟨rfl, rfl, fun h => nomatch h⟩
  slept := ⟨List.nodup_nil, nofun⟩
  view _ _ hx := nomatch hx
  reads _ _ _ hx := nomatch hx
  outside _ _ := ⟨fun ⟨_, hx, _⟩ => (nomatch hx), fun hg => (nomatch hg)⟩
  nested _ := List.nodup_nil
  back _ _ h := nomatch h

/-- A writer who holds a guard is the only one who holds one. -/
theorem alone (h : s.Sound) (hx : s.guards[g]? = some x) (hwrite : x.access = .write)
    (hheld : x.hold = .held) {k : Nat} {y : Guard τ α} (hy : s.guards[k]? = some y)
    (hk : y.hold = .held) : k = g := by
  by_contra hne
  have hother : (s.setHold g .gone).guards[k]? = some y := by
    rw [getElem?_setHold, if_neg (Ne.symm hne)]
    exact hy
  have hcount := count_setHold hx hwrite hheld .gone nofun
  have hpos : 0 < (s.setHold g .gone).count y.access :=
    Array.countP_pos_iff.mpr ⟨y, Array.mem_of_getElem? hother, isHeld_iff.mpr ⟨rfl, hk⟩⟩
  have hwriting := hcount .write
  have hone := h.balanced.writing_le_one
  rw [if_pos rfl] at hwriting
  cases haccess : y.access with
  | write =>
    rw [haccess] at hpos
    omega
  | read =>
    have hreading := hcount .read
    have hzero := h.balanced.alone (by omega)
    rw [haccess] at hpos
    omega

theorem not_mem_beds (h : s.Sound) (ht : (s.visitors t).wish = none) (bed : Bed) :
    (t, bed) ∉ s.lock.beds := by
  intro hbed
  have hwish := h.slept.wishes t bed hbed
  rw [wishes, ht] at hwish
  cases hwish

/-! ### Parts that do not matter to each other -/

/-- The lock changes, and counts the same. -/
theorem setLock (h : s.Sound) {lock : Lock τ} (hbeds : lock.beds = s.lock.beds)
    (hlock : lock.Balanced (s.count .read) (s.count .write)) : Sound { s with lock } :=
  ⟨hlock, h.slept.of_beds hbeds, h.view, h.reads, h.outside, h.nested, h.back⟩

/-- Neither the wish of a thread nor its calls change. -/
theorem setVisitor (h : s.Sound) {v : Visitor} (hwish : v.wish = (s.visitors t).wish)
    (hinside : v.inside = (s.visitors t).inside) : (s.setVisitor t v).Sound := by
  have hvisitor : ∀ u, ((s.setVisitor t v).visitors u).wish = (s.visitors u).wish ∧
      ((s.setVisitor t v).visitors u).inside = (s.visitors u).inside := by
    intro u
    rw [visitors_setVisitor]
    split
    · rename_i hu
      subst hu
      exact ⟨hwish, hinside⟩
    · exact ⟨rfl, rfl⟩
  have hwishes : (s.setVisitor t v).wishes = s.wishes := by
    funext u
    rw [wishes, (hvisitor u).1, wishes]
  refine ⟨h.balanced, hwishes ▸ h.slept, h.view, h.reads, fun g u => ?_, fun u => ?_,
    fun u g hu => ?_⟩
  · rw [(hvisitor u).2]
    exact h.outside g u
  · rw [(hvisitor u).2]
    exact h.nested u
  · rw [(hvisitor u).1] at hu
    rw [(hvisitor u).2]
    exact h.back u g hu

/-! ### Leaving -/

theorem view_setHold (h : s.Sound) (hold : Hold τ) (hout : hold ≠ .held) {k : Nat}
    {y : Guard τ α} (hy : (s.setHold g hold).guards[k]? = some y) (hk : y.hold = .held) :
    y.view = s.value := by
  rw [getElem?_setHold] at hy
  split at hy
  · obtain ⟨z, -, rfl⟩ := Option.map_eq_some_iff.mp hy
    exact absurd hk hout
  · exact h.view k y hy hk

/-- A guard is given up. -/
theorem gone (h : s.Sound) (hx : s.guards[g]? = some x) (hheld : x.hold = .held) {lock : Lock τ}
    (hbeds : lock.beds = s.lock.beds)
    (hlock : lock.Balanced ((s.setHold g .gone).count .read) ((s.setHold g .gone).count .write)) :
    Sound ({ s with lock }.setHold g .gone) := by
  refine ⟨hlock, h.slept.of_beds hbeds, fun k y hy hk => h.view_setHold .gone nofun hy hk,
    fun k u y hy hk => ?_, fun k u => ?_, h.nested, h.back⟩
  · rw [getElem?_setHold] at hy
    split at hy
    · obtain ⟨z, -, rfl⟩ := Option.map_eq_some_iff.mp hy
      cases hk
    · exact h.reads k u y hy hk
  · rw [out_setHold (s := { s with lock }) hx]
    split
    · rename_i hgk
      subst hgk
      exact iff_of_false nofun fun hin => not_out_of_held hx hheld ((h.outside g u).mpr hin)
    · exact h.outside k u

theorem dropRead (h : s.Sound) (hx : s.guards[g]? = some x) (hread : x.access = .read)
    (hheld : x.hold = .held) : (s.dropRead g).Sound := by
  have hcount := count_setHold hx hread hheld .gone nofun
  refine h.gone hx hheld Lock.beds_leaveRead (Lock.Balanced.leaveRead ?_)
  have hbalanced := h.balanced
  rw [hcount .read, hcount .write] at hbalanced
  exact hbalanced

theorem dropWrite (h : s.Sound) (hx : s.guards[g]? = some x) (hwrite : x.access = .write)
    (hheld : x.hold = .held) : (s.dropWrite t g).Sound := by
  have hcount := count_setHold hx hwrite hheld .gone nofun
  have hgone : Sound ({ s with lock := s.lock.leaveWrite }.setHold g .gone) := by
    refine h.gone hx hheld Lock.beds_leaveWrite (Lock.Balanced.leaveWrite ?_)
    have hbalanced := h.balanced
    rw [hcount .read, hcount .write] at hbalanced
    exact hbalanced
  exact hgone.setVisitor rfl rfl

theorem stepOut (h : s.Sound) (hx : s.guards[g]? = some x) (hread : x.access = .read)
    (hheld : x.hold = .held) (hwish : (s.visitors t).wish = none) : (s.stepOut t g).Sound := by
  have hcount := count_setHold hx hread hheld (.out t) nofun
  have hnew : g ∉ (s.visitors t).inside := fun hin =>
    not_out_of_held hx hheld ((h.outside g t).mpr hin)
  have hbalanced := h.balanced
  rw [hcount .read, hcount .write] at hbalanced
  have hlock : (s.stepOut t g).lock.Balanced ((s.setHold g (.out t)).count .read)
    ((s.setHold g (.out t)).count .write) := hbalanced.leaveRead
  refine ⟨hlock, ?_, fun k y hy hk => h.view_setHold (.out t) nofun hy hk,
    fun k u y hy hk => ?_, fun k u => ?_, fun u => ?_, fun u k hu => ?_⟩
  · have hwishes : (s.stepOut t g).wishes = s.wishes := by
      refine (wishes_setVisitor _).trans ?_
      exact Function.update_eq_self t s.wishes
    rw [hwishes]
    exact h.slept.of_beds Lock.beds_leaveRead
  · have hy : (s.setHold g (.out t)).guards[k]? = some y := hy
    rw [getElem?_setHold] at hy
    split at hy
    · rename_i hgk
      subst hgk
      rw [hx] at hy
      cases hy
      exact hread
    · exact h.reads k u y hy hk
  · refine (out_setHold (s := s) hx (.out t) k u).trans ?_
    rw [Guarded.stepOut, visitors_setVisitor]
    by_cases hgk : g = k
    · subst hgk
      rw [if_pos rfl]
      split
      · rename_i hut
        subst hut
        simp
      · rename_i hut
        refine iff_of_false (fun heq => hut (Hold.out.inj heq).symm) fun hin => ?_
        exact not_out_of_held hx hheld ((h.outside g u).mpr hin)
    · rw [if_neg hgk, h.outside]
      split
      · rename_i hut
        subst hut
        simp [Ne.symm hgk]
      · rfl
  · rw [Guarded.stepOut, visitors_setVisitor]
    split
    · exact List.nodup_cons.mpr ⟨hnew, h.nested t⟩
    · exact h.nested u
  · rw [Guarded.stepOut, visitors_setVisitor] at hu ⊢
    by_cases hut : u = t
    · rw [if_pos hut] at hu
      exact nomatch hwish.symm.trans hu
    · rw [if_neg hut] at hu ⊢
      exact h.back u k hu

/-! ### Coming in -/

/-- The counts after the lock's answer. -/
theorem count_answer (h : s.Sound) {wish : Wish} {granted : Bool} {lock : Lock τ}
    (hback : ∀ g, wish = .back g → (s.visitors t).inside.head? = some g) (a : Access) :
    (s.answer t wish (granted, lock)).count a =
      s.count a + Lock.gain granted wish.access a := by
  cases granted with
  | false => simp [Lock.gain, Guarded.answer, Guarded.setVisitor, count]
  | true =>
    cases wish with
    | enter access =>
      show (s.guards.push _).countP _ = _
      rw [Array.countP_push]
      simp [Lock.gain, Guard.isHeld, Wish.access, count]
    | back g =>
      obtain ⟨x, hx, hout⟩ := (h.outside g t).mpr (List.mem_of_mem_head? (hback g rfl))
      have hread := h.reads g t x hx hout
      have hmodify := countP_modify hx
        (fun x => { x with hold := .held, view := s.value }) (·.isHeld a)
      simp only [isHeld_iff, hread, hout, reduceCtorEq, and_false, if_false,
        Nat.add_zero] at hmodify
      refine hmodify.trans ?_
      simp [Lock.gain, Wish.access, count]

theorem wishes_answer (wish : Wish) (granted : Bool) (lock : Lock τ) :
    (s.answer t wish (granted, lock)).wishes =
      Function.update s.wishes t (Lock.pending granted wish.access) := by
  cases granted with
  | false => exact wishes_setVisitor _
  | true => cases wish <;> exact wishes_setVisitor _

/-- The thread sleeps for what it asked. -/
theorem asleep (h : s.Sound) {wish : Wish} {lock : Lock τ}
    (hback : ∀ g, wish = .back g → (s.visitors t).inside.head? = some g)
    (hbalanced : lock.Balanced (s.count .read) (s.count .write))
    (hslept : lock.Slept (s.answer t wish (false, lock)).wishes) :
    (s.answer t wish (false, lock)).Sound := by
  have hinside : ∀ u, ((s.answer t wish (false, lock)).visitors u).inside =
      (s.visitors u).inside := by
    intro u
    refine (congrArg Visitor.inside (visitors_setVisitor _ u)).trans ?_
    split
    · rename_i hut
      rw [hut]
    · rfl
  refine ⟨hbalanced, hslept, h.view, h.reads, fun k u => ?_, fun u => ?_, fun u k hu => ?_⟩
  · rw [hinside]
    exact h.outside k u
  · rw [hinside]
    exact h.nested u
  · rw [hinside]
    have hwish := (congrArg Visitor.wish (visitors_setVisitor (s := { s with lock })
      { s.visitors t with wish := some wish } u)).symm.trans hu
    by_cases hut : u = t
    · rw [if_pos hut] at hwish
      rw [hut]
      exact hback k (Option.some.inj hwish)
    · rw [if_neg hut] at hwish
      exact h.back u k hwish

/-- The thread gets a new guard. -/
theorem entered (h : s.Sound) {access : Access} {lock : Lock τ}
    (hbalanced : lock.Balanced ((s.answer t (.enter access) (true, lock)).count .read)
      ((s.answer t (.enter access) (true, lock)).count .write))
    (hslept : lock.Slept (s.answer t (.enter access) (true, lock)).wishes) :
    (s.answer t (.enter access) (true, lock)).Sound := by
  have hvisitor : ∀ u, ((s.answer t (.enter access) (true, lock)).visitors u) =
      if u = t then { s.visitors t with wish := none } else s.visitors u :=
    visitors_setVisitor _
  have hinside : ∀ u, ((s.answer t (.enter access) (true, lock)).visitors u).inside =
      (s.visitors u).inside := by
    intro u
    rw [hvisitor]
    split
    · rename_i hut
      rw [hut]
    · rfl
  have hguards : ∀ (k : Nat) (y : Guard τ α),
      (s.answer t (.enter access) (true, lock)).guards[k]? = some y →
      s.guards[k]? = some y ∨ y = { access, view := s.value } := by
    intro k y hy
    have hy : (s.guards.push { access, view := s.value })[k]? = some y := hy
    rw [Array.getElem?_push] at hy
    split at hy
    · exact .inr (Option.some.inj hy).symm
    · exact .inl hy
  refine ⟨hbalanced, hslept, fun k y hy hk => ?_, fun k u y hy hk => ?_, fun k u => ?_,
    fun u => ?_, fun u k hu => ?_⟩
  · rcases hguards k y hy with hy | rfl
    · exact h.view k y hy hk
    · rfl
  · rcases hguards k y hy with hy | rfl
    · exact h.reads k u y hy hk
    · cases hk
  · rw [hinside, ← h.outside]
    constructor
    · rintro ⟨y, hy, hk⟩
      rcases hguards k y hy with hy | rfl
      · exact ⟨y, hy, hk⟩
      · cases hk
    · rintro ⟨y, hy, hk⟩
      have hlt := (Array.getElem?_eq_some_iff.mp hy).1
      refine ⟨y, ?_, hk⟩
      show (s.guards.push _)[k]? = some y
      rw [Array.getElem?_push, if_neg (Nat.ne_of_lt hlt), hy]
  · rw [hinside]
    exact h.nested u
  · rw [hinside]
    rw [hvisitor] at hu
    split at hu
    · cases hu
    · exact h.back u k hu

/-- The call is over, and the guard of the thread is held again. -/
theorem returned (h : s.Sound) {lock : Lock τ} (hback : (s.visitors t).inside.head? = some g)
    (hbalanced : lock.Balanced ((s.answer t (.back g) (true, lock)).count .read)
      ((s.answer t (.back g) (true, lock)).count .write))
    (hslept : lock.Slept (s.answer t (.back g) (true, lock)).wishes) :
    (s.answer t (.back g) (true, lock)).Sound := by
  obtain ⟨rest, hrest⟩ := List.head?_eq_some_iff.mp hback
  obtain ⟨x, hx, hout⟩ := (h.outside g t).mpr (List.mem_of_mem_head? hback)
  have hvisitor : ∀ u, ((s.answer t (.back g) (true, lock)).visitors u) =
      if u = t then { s.visitors t with wish := none, inside := (s.visitors t).inside.tail }
      else s.visitors u :=
    visitors_setVisitor _
  have hguards : ∀ k : Nat, (s.answer t (.back g) (true, lock)).guards[k]? =
      if g = k then some { x with hold := .held, view := s.value } else s.guards[k]? :=
    getElem?_modify_of_some hx _
  refine ⟨hbalanced, hslept, fun k y hy hk => ?_, fun k u y hy hk => ?_, fun k u => ?_,
    fun u => ?_, fun u k hu => ?_⟩
  · rw [hguards] at hy
    split at hy
    · cases hy
      rfl
    · exact h.view k y hy hk
  · rw [hguards] at hy
    split at hy
    · cases hy
      cases hk
    · exact h.reads k u y hy hk
  · have hnested := h.nested t
    rw [hrest] at hnested
    have hout' : (s.answer t (.back g) (true, lock)).Out k u ↔ g ≠ k ∧ s.Out k u := by
      unfold Out
      rw [hguards]
      split
      · simp_all
      · simp_all
    rw [hout', h.outside, hvisitor]
    split
    · rename_i hut
      rw [hut, hrest]
      simp only [List.tail_cons, List.mem_cons]
      constructor
      · rintro ⟨hgk, hk⟩
        exact hk.resolve_left (Ne.symm hgk)
      · intro hk
        refine ⟨?_, .inr hk⟩
        rintro rfl
        exact (List.nodup_cons.mp hnested).1 hk
    · rename_i hut
      refine and_iff_right_of_imp fun hk => ?_
      rintro rfl
      obtain ⟨y, hy, houtu⟩ := (h.outside g u).mpr hk
      rw [hx] at hy
      cases hy
      rw [hout] at houtu
      exact hut (Hold.out.inj houtu).symm
  · rw [hvisitor]
    split
    · exact (h.nested t).sublist (List.tail_sublist _)
    · exact h.nested u
  · rw [hvisitor] at hu ⊢
    by_cases hut : u = t
    · rw [if_pos hut] at hu
      cases hu
    · rw [if_neg hut] at hu ⊢
      exact h.back u k hu

/-- A wish is granted, or the thread sleeps. -/
theorem answer (h : s.Sound) {wish : Wish} (r : Bool × Lock τ)
    (hback : ∀ g, wish = .back g → (s.visitors t).inside.head? = some g)
    (hbalanced : r.2.Balanced (s.count .read + Lock.gain r.1 wish.access .read)
      (s.count .write + Lock.gain r.1 wish.access .write))
    (hslept : r.2.Slept (Function.update s.wishes t (Lock.pending r.1 wish.access))) :
    (s.answer t wish r).Sound := by
  obtain ⟨granted, lock⟩ := r
  have hcount : ∀ a, (s.answer t wish (granted, lock)).count a =
      s.count a + Lock.gain granted wish.access a := h.count_answer hback
  have hwishes : (s.answer t wish (granted, lock)).wishes =
      Function.update s.wishes t (Lock.pending granted wish.access) :=
    wishes_answer wish granted lock
  rw [← hcount, ← hcount] at hbalanced
  rw [← hwishes] at hslept
  cases granted with
  | false => exact h.asleep hback hbalanced hslept
  | true =>
    cases wish with
    | enter access => exact h.entered hbalanced hslept
    | back g => exact h.returned (hback g rfl) hbalanced hslept

/-- A thread that is up asks for something. -/
theorem ask (h : s.Sound) {wish : Wish} (hup : (s.visitors t).wish = none)
    (hback : ∀ g, wish = .back g → (s.visitors t).inside.head? = some g) :
    (s.answer t wish (s.lock.enter t wish.access)).Sound :=
  h.answer _ hback (h.balanced.enter _) (h.slept.enter (h.not_mem_beds hup) _)

theorem resume (h : s.Sound) {wish : Wish} (hwish : (s.visitors t).wish = some wish)
    {sleeper : Sleeper τ} (hs : s.lock.sleepers.find? (·.thread = t) = some sleeper) :
    (s.answer t wish (s.lock.resume sleeper)).Sound := by
  have hbed : (t, sleeper.bed) ∈ s.lock.beds := by
    obtain ⟨before, after, hbeds, -⟩ := Lock.beds_rise hs
    simp [hbeds]
  have haccess : wish.access = sleeper.bed.access := by
    have hslept := h.slept.wishes t _ hbed
    rw [wishes, hwish] at hslept
    exact Option.some.inj hslept
  refine h.answer _ (fun g hg => h.back t g (hwish.trans (congrArg some hg))) ?_ ?_
  · rw [haccess]
    exact h.balanced.resume hs
  · rw [haccess]
    exact h.slept.resume hs

/-! ### Writing -/

theorem write (h : s.Sound) (hx : s.guards[g]? = some x) (hwrite : x.access = .write)
    (hheld : x.hold = .held) (f : α → α) : (s.write g x f).Sound := by
  have hguards : ∀ k : Nat, (s.write g x f).guards[k]? =
      if g = k then some { x with view := f x.view } else s.guards[k]? :=
    getElem?_modify_of_some hx _
  have hcount : ∀ a, (s.write g x f).count a = s.count a := by
    intro a
    have hmodify := countP_modify hx (fun y => { y with view := f x.view }) (·.isHeld a)
    exact Nat.add_right_cancel hmodify
  have hout : ∀ k u, (s.write g x f).Out k u ↔ s.Out k u := by
    intro k u
    unfold Out
    rw [hguards]
    split
    · rename_i hgk
      rw [← hgk, hx]
      simp
    · rfl
  refine ⟨?_, h.slept, fun k y hy hk => ?_, fun k u y hy hk => ?_, fun k u => ?_, h.nested, h.back⟩
  · rw [hcount, hcount]
    exact h.balanced
  · rw [hguards] at hy
    split at hy
    · cases hy
      rfl
    · rename_i hgk
      exact absurd (h.alone hx hwrite hheld hy hk).symm hgk
  · rw [hguards] at hy
    split at hy
    · cases hy
      exact nomatch hheld.symm.trans hk
    · exact h.reads k u y hy hk
  · exact (hout k u).trans (h.outside k u)

/-! ### Moves -/

theorem step {m : Move τ α} (h : s.Sound) (hs : s.step m = some s') : s'.Sound := by
  cases made_of_step hs with
  | asked _ up back => exact h.ask up back
  | resumed wished found => exact h.resume wished found
  | wrote held =>
    obtain ⟨hx, hwrite, hheld⟩ := held?_eq_some held
    exact h.write hx hwrite hheld _
  | droppedRead held =>
    obtain ⟨hx, hread, hheld⟩ := held?_eq_some held
    exact h.dropRead hx hread hheld
  | droppedWrite held =>
    obtain ⟨hx, hwrite, hheld⟩ := held?_eq_some held
    exact h.dropWrite hx hwrite hheld
  | steppedOut up held =>
    obtain ⟨hx, hread, hheld⟩ := held?_eq_some held
    exact h.stepOut hx hread hheld up
  | opened wish inside =>
    have hopen := h.setLock Lock.beds_openGate h.balanced.openGate
    exact hopen.setVisitor wish inside
  | turned _ wish inside => exact h.setVisitor wish inside

theorem play {ms : List (Move τ α)} (h : s.Sound) (hs : s.play ms = some s') : s'.Sound :=
  Moves.play_induction (fun _ _ _ h hs => h.step hs) h hs

end Sound

end ActorSystem.Guarded
