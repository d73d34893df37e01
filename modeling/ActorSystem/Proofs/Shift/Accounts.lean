import Mathlib.Data.Finset.Card
import ActorSystem.Proofs.Pool.Lookup
import ActorSystem.Proofs.Shift.Lawful

/-!
# Locks and hands

What the locks of a site say of themselves is what the threads have at hand: a mutex is locked
for one thread that has it, the table's lock is claimed for one writer, and the readers that it
counts are the threads with a reader's grip.

* `Sole`, `Counted`: what one thread can have, and what any number of threads can have.
* `Accounts.step`: the accounts of a shift go on balancing.
-/

namespace ActorSystem

/-! ## Who has what -/

/-- Something that one thread at most has, and whether one does. -/
structure Sole (held : Bool) (has : Thread → Prop) : Prop where
  some : held ↔ ∃ t, has t
  alone : ∀ t u, has t → has u → t = u

/-- Something that so many threads have. -/
def Counted (n : Nat) (has : Thread → Prop) : Prop :=
  ∃ threads : Finset Thread, (∀ t, t ∈ threads ↔ has t) ∧ threads.card = n

variable {held : Bool} {n : Nat} {has has' : Thread → Prop} {t : Thread}

namespace Sole

theorem same (h : Sole held has) (hsame : ∀ t, has' t ↔ has t) : Sole held has' where
  some := h.some.trans (exists_congr fun t => (hsame t).symm)
  alone t u ht hu := h.alone t u ((hsame t).mp ht) ((hsame u).mp hu)

theorem taken (h : Sole false has) (ht : has' t) (hother : ∀ u, u ≠ t → (has' u ↔ has u)) :
    Sole true has' := by
  have hnone : ∀ u, u ≠ t → ¬ has' u := fun u hne hu =>
    Bool.false_ne_true (h.some.mpr ⟨u, (hother u hne).mp hu⟩)
  refine ⟨iff_of_true rfl ⟨t, ht⟩, fun u v hu hv => ?_⟩
  have hut : u = t := by_contra fun hne => hnone u hne hu
  have hvt : v = t := by_contra fun hne => hnone v hne hv
  rw [hut, hvt]

theorem given (h : Sole held has) (ht : has t) (ht' : ¬ has' t)
    (hother : ∀ u, u ≠ t → (has' u ↔ has u)) : Sole false has' := by
  have hnone : ∀ u, ¬ has' u := by
    intro u hu
    by_cases hne : u = t
    · exact ht' (hne ▸ hu)
    · exact hne (h.alone u t ((hother u hne).mp hu) ht)
  exact ⟨iff_of_false Bool.false_ne_true fun ⟨u, hu⟩ => hnone u hu,
    fun u _ hu => absurd hu (hnone u)⟩

end Sole

namespace Counted

theorem same (h : Counted n has) (hsame : ∀ t, has' t ↔ has t) : Counted n has' := by
  obtain ⟨threads, hmem, hcard⟩ := h
  exact ⟨threads, fun t => (hmem t).trans (hsame t).symm, hcard⟩

theorem taken (h : Counted n has) (ht : ¬ has t) (ht' : has' t)
    (hother : ∀ u, u ≠ t → (has' u ↔ has u)) : Counted (n + 1) has' := by
  obtain ⟨threads, hmem, hcard⟩ := h
  have hnot : t ∉ threads := fun hin => ht ((hmem t).mp hin)
  refine ⟨insert t threads, fun u => ?_, by rw [Finset.card_insert_of_notMem hnot, hcard]⟩
  rw [Finset.mem_insert]
  by_cases hut : u = t
  · subst hut
    exact iff_of_true (.inl rfl) ht'
  · rw [hother u hut, hmem]
    exact or_iff_right hut

theorem given (h : Counted n has) (ht : has t) (ht' : ¬ has' t)
    (hother : ∀ u, u ≠ t → (has' u ↔ has u)) : Counted (n - 1) has' := by
  obtain ⟨threads, hmem, hcard⟩ := h
  refine ⟨threads.erase t, fun u => ?_, by rw [Finset.card_erase_of_mem ((hmem t).mpr ht), hcard]⟩
  rw [Finset.mem_erase]
  by_cases hut : u = t
  · subst hut
    exact iff_of_false (fun h => h.1 rfl) ht'
  · rw [hother u hut, hmem]
    exact and_iff_right hut

theorem exists_of_pos (h : Counted n has) (hn : 0 < n) : ∃ t, has t := by
  obtain ⟨threads, hmem, hcard⟩ := h
  obtain ⟨t, ht⟩ := Finset.card_pos.mp (hcard.symm ▸ hn)
  exact ⟨t, (hmem t).mp ht⟩

end Counted

/-! ## The accounts -/

variable {σ : Signature} {company : Company σ} {workers : Nat} {c c' : Shift σ}

structure Accounts (workers : Nat) (c : Shift σ) : Prop where
  mutexes : ∀ w, Sole (c.site.signals w).locked fun t => (c.hand workers t).mutex = some w
  writer : Sole c.site.world.pool.tableLock.hasWriter fun t => (c.hand workers t).grip.claims
  readers : Counted c.site.world.pool.tableLock.readers fun t =>
    (c.hand workers t).grip = .reading

/-- Apart from the lock, nothing changes who reads and who claims. -/
theorem Grip.after_kept {g : Grip} {x : Atom σ} (hx : g.allows true x)
    (hlock : ∀ op, x ≠ .lock op) (y : x.Answer) :
    (g.after x y).claims = g.claims ∧ (g.after x y = .reading ↔ g = .reading) := by
  cases x with
  | lock op => exact absurd rfl (hlock op)
  | enroll x =>
    obtain rfl : g = .boxed x.box := hx
    exact ⟨rfl, by simp [Grip.after]⟩
  | createMailbox a =>
    cases g with
    | writing => cases y <;> exact ⟨rfl, by simp [Grip.after]⟩
    | _ => exact ⟨rfl, Iff.rfl⟩
  | _ => cases g <;> exact ⟨rfl, Iff.rfl⟩

theorem Grip.of_inside {g : Grip} (h : g.inside) : g.claims ∧ g ≠ .reading := by
  cases g <;> first | exact ⟨rfl, nofun⟩ | cases h

namespace Accounts

theorem start (config : Config) (env : σ.Env) : Accounts workers (Shift.start config env) where
  mutexes _ := ⟨iff_of_false Bool.false_ne_true fun ⟨_, h⟩ => (nomatch h), fun _ _ h => (nomatch h)⟩
  writer := ⟨iff_of_false Bool.false_ne_true fun ⟨_, h⟩ => (nomatch h), fun _ _ h => (nomatch h)⟩
  readers := ⟨∅, fun _ => iff_of_false (Finset.notMem_empty _) nofun, rfl⟩

/-- An access to the lock around the table. -/
theorem moved_lock {g : Grip} {s : LockState} {grips grips' : Thread → Grip}
    {op : LockState.Op} (hwriter : Sole s.hasWriter fun t => (grips t).claims)
    (hreaders : Counted s.readers fun t => grips t = .reading)
    (hallows : (grips t).allows true (Atom.lock op : Atom σ)) (hready : s.admits op)
    (hgrip : ∀ y, g = (grips t).after (Atom.lock op : Atom σ) y)
    (hgrips : grips' = Function.update grips t g) :
    (Sole (s.after op).hasWriter fun t => (grips' t).claims) ∧
      Counted (s.after op).readers fun t => grips' t = .reading := by
  have hself : grips' t = g := by rw [hgrips, Function.update_self]
  have hclaims : ∀ u, u ≠ t → ((grips' u).claims = true ↔ (grips u).claims = true) := by
    intro u hu
    rw [hgrips, Function.update_of_ne hu]
  have hreads : ∀ u, u ≠ t → (grips' u = .reading ↔ grips u = .reading) := by
    intro u hu
    rw [hgrips, Function.update_of_ne hu]
  have hsame : (grips t).claims = g.claims →
      ∀ u, (grips' u).claims = true ↔ (grips u).claims = true := by
    intro h u
    by_cases hu : u = t
    · rw [hu, hself, h]
    · exact hclaims u hu
  have hsame' : (g = .reading ↔ grips t = .reading) →
      ∀ u, grips' u = .reading ↔ grips u = .reading := by
    intro h u
    by_cases hu : u = t
    · rw [hu, hself, h]
    · exact hreads u hu
  cases op with
  | enterRead =>
    have hg : grips t = .away := hallows
    obtain rfl : g = .reading := (hgrip ()).trans (by rw [hg]; rfl)
    exact ⟨hwriter.same (hsame (by rw [hg]; rfl)), hreaders.taken (by simp [hg]) hself hreads⟩
  | leaveRead =>
    have hg : grips t = .reading := hallows
    obtain rfl : g = .away := (hgrip ()).trans (by rw [hg]; rfl)
    exact ⟨hwriter.same (hsame (by rw [hg]; rfl)), hreaders.given hg (by simp [hself]) hreads⟩
  | claim =>
    have hg : grips t = .away := hallows
    obtain rfl : g = .claiming := (hgrip ()).trans (by rw [hg]; rfl)
    have hfree : s.hasWriter = false := by simpa [LockState.admits] using hready
    rw [hfree] at hwriter
    refine ⟨hwriter.taken (t := t) ?_ hclaims, hreaders.same (hsame' (by simp [hg]))⟩
    rw [hself]
    rfl
  | awaitReaders =>
    have hg : grips t = .claiming := hallows
    obtain rfl : g = .writing := (hgrip ()).trans (by rw [hg]; rfl)
    exact ⟨hwriter.same (hsame (by rw [hg]; rfl)), hreaders.same (hsame' (by simp [hg]))⟩
  | leaveWrite =>
    obtain ⟨hg, hnot⟩ := Grip.of_inside hallows
    obtain rfl : g = .away := (hgrip ()).trans (by cases grips t <;> rfl)
    refine ⟨hwriter.given hg ?_ hclaims, hreaders.same (hsame' (by simp [hnot]))⟩
    rw [hself]
    exact Bool.false_ne_true

/-- What somebody does to the world. -/
theorem moved_atom {w : World σ} {grips grips' : Thread → Grip} {x : Atom σ} {y : x.Answer}
    (hwriter : Sole w.pool.tableLock.hasWriter fun t => (grips t).claims)
    (hreaders : Counted w.pool.tableLock.readers fun t => grips t = .reading)
    (hallows : (grips t).allows true x) (hready : x.ready w)
    (hgrips : grips' = Function.update grips t ((grips t).after x y)) :
    (Sole (x.effect w).pool.tableLock.hasWriter fun t => (grips' t).claims) ∧
      Counted (x.effect w).pool.tableLock.readers fun t => grips' t = .reading := by
  rw [Atom.tableLock_effect]
  by_cases hlock : ∃ op, x = .lock op
  · obtain ⟨op, rfl⟩ := hlock
    exact moved_lock hwriter hreaders hallows hready (fun _ => rfl) hgrips
  · have hnot : ∀ op, x ≠ .lock op := fun op hx => hlock ⟨op, hx⟩
    obtain ⟨hclaims, hreading⟩ := Grip.after_kept hallows hnot y
    have hkept : ∀ u, ((grips' u).claims = true ↔ (grips u).claims = true) ∧
        (grips' u = .reading ↔ grips u = .reading) := by
      intro u
      rw [hgrips, Function.update_apply]
      split
      · rename_i hu
        rw [hu, hclaims]
        exact ⟨Iff.rfl, hreading⟩
      · exact ⟨Iff.rfl, Iff.rfl⟩
    cases x with
    | lock op => exact absurd rfl (hnot op)
    | alter f => exact hallows.elim
    | _ => exact ⟨hwriter.same fun u => (hkept u).1, hreaders.same fun u => (hkept u).2⟩

/-- What somebody does to the signals. -/
theorem moved_signal {signals : Nat → Signal} {hands hands' : Thread → Hand} {v : Nat}
    {op : Signal.Op} {h : Hand}
    (hmutexes : ∀ w, Sole (signals w).locked fun t => (hands t).mutex = some w)
    (hmay : (hands t).may workers (.signal v op : Motion σ)) (hready : (signals v).admits op)
    (hhand : ∃ y, h = (hands t).after workers (.signal v op : Motion σ) y)
    (hhands : hands' = Function.update hands t h) (w : Nat) :
    Sole (Function.update signals v ((signals v).after op) w).locked fun t =>
      (hands' t).mutex = some w := by
  obtain ⟨y, hh⟩ := hhand
  have hself : hands' t = h := by rw [hhands, Function.update_self]
  have hother : ∀ u, u ≠ t → ((hands' u).mutex = some w ↔ (hands u).mutex = some w) := by
    intro u hu
    rw [hhands, Function.update_of_ne hu]
  have hsame : (h.mutex = some w ↔ (hands t).mutex = some w) →
      ∀ u, (hands' u).mutex = some w ↔ (hands u).mutex = some w := by
    intro hiff u
    by_cases hu : u = t
    · rw [hu, hself, hiff]
    · exact hother u hu
  have hsole := hmutexes w
  by_cases hwv : w = v
  · subst hwv
    rw [Function.update_self]
    cases op with
    | lock | wake =>
      have hfree : (signals w).locked = false := by simp_all [Signal.admits]
      rw [hfree] at hsole
      exact hsole.taken (t := t) (by rw [hself, hh]; rfl) hother
    | unlock | park =>
      have hmine : (hands t).mutex = some w := hmay
      exact hsole.given hmine (by rw [hself, hh]; exact nofun) hother
    | readStop | setStop | notify => exact hsole.same (hsame (by rw [hh]; rfl))
  · rw [Function.update_of_ne hwv]
    refine hsole.same (hsame ?_)
    cases op with
    | lock | wake =>
      have hnone : (hands t).mutex = none := hmay.2.1
      rw [hh, hnone]
      exact iff_of_false (fun heq => hwv (Option.some.inj heq).symm) nofun
    | unlock | park =>
      have hmine : (hands t).mutex = some v := hmay
      rw [hh, hmine]
      exact iff_of_false nofun fun heq => hwv (Option.some.inj heq).symm
    | readStop | setStop | notify => rw [hh]; rfl

theorem step (hl : Lawful workers c) (ha : Accounts workers c) {m : Shift.Move σ}
    (h : c.step company workers m = some c') : Accounts workers c' := by
  cases Shift.change h with
  | quiet hsite hhand =>
    refine ⟨?_, ?_, ?_⟩ <;> rw [hsite, hhand]
    · exact ha.mutexes
    · exact ha.writer
    · exact ha.readers
  | moved t x _ hnext hready hsite hhand =>
    have hmay := hl.may_next hnext
    have hgrips : (fun u => (c'.hand workers u).grip) =
        Function.update (fun u => (c.hand workers u).grip) t
          ((c.hand workers t).after workers x (x.answer c.site)).grip := by
      funext u
      rw [hhand, Function.update_apply, Function.update_apply]
      split <;> rfl
    cases x with
    | signal v op =>
      have hsame : (fun u => (c'.hand workers u).grip) = fun u => (c.hand workers u).grip := by
        rw [hgrips]
        exact Function.update_eq_self_iff.mpr (by cases op <;> rfl)
      refine ⟨?_, ?_, ?_⟩ <;> rw [hsite]
      · exact moved_signal ha.mutexes hmay hready ⟨_, rfl⟩ hhand
      · exact ha.writer.same fun u => by rw [congrFun hsame u]
      · exact ha.readers.same fun u => by rw [congrFun hsame u]
    | atom x =>
      have hmutex : ∀ u, (c'.hand workers u).mutex = (c.hand workers u).mutex := by
        intro u
        rw [hhand, Function.update_apply]
        split
        · rename_i hu
          rw [hu]
          rfl
        · rfl
      obtain ⟨hwriter, hreaders⟩ := moved_atom ha.writer ha.readers hmay hready hgrips
      refine ⟨fun w => ?_, ?_, ?_⟩ <;> rw [hsite]
      · exact (ha.mutexes w).same fun u => by rw [hmutex]
      · exact hwriter
      · exact hreaders

end Accounts

end ActorSystem
