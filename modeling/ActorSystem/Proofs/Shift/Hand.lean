import ActorSystem.Proofs.Shift.Grip
import ActorSystem.Shift

/-!
# What threads have at hand

The `Hand` of a thread is what it has of the locks of a site and what it has yet to do: its grip
on the table's lock, the worker whose mutex it has, the workers that it has to notify of a letter,
and those that it has told to stop. It is read off the motions that the thread has made.

A duty is followed with an empty hand: it takes no mutex with a grip on the table, makes no access
to the world with a mutex, and forgets nobody (`ofAct_follows`, `stopAll_follows`). A worker's
hand fits its place in the loop (`Fits`), and every motion of a thread is one that its hand may
make (`Hand.may`).

* `Fits.next`: along the loop of a worker, hands fit places.
-/

namespace ActorSystem

variable {σ : Signature} {α : Type}

structure Hand where
  grip : Grip := .away
  /-- The worker whose mutex it has. -/
  mutex : Option Nat := none
  /-- The workers that it has to notify of a letter. -/
  due : List Nat := []
  /-- The workers whose flag it has set. -/
  flagged : List Nat := []
  /-- The workers that it has notified after setting their flags. -/
  told : List Nat := []

namespace Hand

variable {workers : Nat} {sweeps : Bool} {h : Hand}

def after (workers : Nat) (h : Hand) (x : Motion σ) (y : x.Answer) : Hand :=
  match x, y with
  | .atom x, y =>
    { h with
      grip := h.grip.after x y
      due := if x.isPut then List.range workers else h.due }
  | .signal w .lock, _ | .signal w .wake, _ => { h with mutex := some w }
  | .signal _ .unlock, _ | .signal _ .park, _ => { h with mutex := none }
  | .signal w .setStop, _ => { h with flagged := w :: h.flagged }
  | .signal w .notify, _ =>
    { h with
      due := h.due.filter (· ≠ w)
      told := if w ∈ h.flagged then w :: h.told else h.told }
  | .signal _ .readStop, _ => h

/-- What a thread may do on duty. -/
def allows (workers : Nat) (sweeps : Bool) (h : Hand) : Motion σ → Prop
  | .atom x => h.grip.allows sweeps x ∧ h.mutex = none ∧ h.due = []
  | .signal w .lock => w < workers ∧ h.mutex = none ∧ h.grip = .away
  | .signal w .unlock | .signal w .setStop => h.mutex = some w
  | .signal w .notify => w < workers ∧ (h.mutex = some w ∨ w ∈ h.flagged)
  | .signal _ .readStop | .signal _ .park | .signal _ .wake => False

/-- What a thread may do at all. -/
def may (workers : Nat) (h : Hand) : Motion σ → Prop
  | .atom x => h.grip.allows true x
  | .signal w .lock | .signal w .wake => w < workers ∧ h.mutex = none ∧ h.grip = .away
  | .signal w .unlock | .signal w .setStop | .signal w .readStop | .signal w .park =>
    h.mutex = some w
  | .signal w .notify => w < workers ∧ (h.mutex = some w ∨ w ∈ h.flagged)

/-- Nothing to give back, and nobody to notify. -/
structure Idle (h : Hand) : Prop where
  grip : h.grip = .away
  mutex : h.mutex = none
  due : h.due = []

theorem idle_empty : Idle {} := ⟨rfl, rfl, rfl⟩

theorem grip_allows_true {g : Grip} {x : Atom σ} (hx : g.allows sweeps x) : g.allows true x := by
  cases x with
  | finish a o => rfl
  | lock op => cases op <;> exact hx
  | _ => exact hx

theorem may_of_allows {x : Motion σ} (hx : h.allows workers sweeps x) : h.may workers x := by
  cases x with
  | atom x => exact grip_allows_true hx.1
  | signal w op => cases op <;> first | exact hx | exact hx.elim

end Hand

/-! ## Duties -/

namespace Duty

variable {workers : Nat} {sweeps : Bool} {h : Hand}

abbrev Follows (workers : Nat) (sweeps : Bool) (h : Hand) (d : Duty σ α)
    (R : α → Hand → Prop) : Prop :=
  Dialogue.Follows (Hand.allows workers sweeps) (Hand.after workers) h d R

theorem wakeAll_follows {ws : List Nat} (hws : ∀ w ∈ ws, w < workers) (hgrip : h.grip = .away)
    (hmutex : h.mutex = none) :
    Follows workers sweeps h (wakeAll ws : Duty σ Unit) fun _ h' =>
      h'.grip = .away ∧ h'.mutex = none ∧ h'.due = h.due.filter (· ∉ ws) := by
  induction ws generalizing h with
  | nil => exact ⟨hgrip, hmutex, (List.filter_eq_self.mpr (by simp)).symm⟩
  | cons w rest ih =>
    have hw := hws w List.mem_cons_self
    refine ⟨⟨hw, hmutex, hgrip⟩, fun _ => ⟨⟨hw, .inl rfl⟩, fun _ => ⟨rfl, fun _ => ?_⟩⟩⟩
    refine Dialogue.Follows.mono (ih (fun v hv => hws v (List.mem_cons_of_mem w hv)) hgrip rfl) ?_
    rintro _ h' ⟨hg, hm, hd⟩
    refine ⟨hg, hm, hd.trans ?_⟩
    simp only [Hand.after, List.filter_filter, List.mem_cons, not_or]
    congr 1
    funext v
    simp [Bool.and_comm]

/-- Everybody is told. -/
theorem stopAll_follows {ws : List Nat} (hws : ∀ w ∈ ws, w < workers) (hidle : h.Idle) :
    Follows workers sweeps h (stopAll ws : Duty σ Unit) fun _ h' =>
      h'.Idle ∧ ∀ w, w ∈ ws ∨ w ∈ h.told → w ∈ h'.told := by
  induction ws generalizing h with
  | nil =>
    refine ⟨hidle, fun w hw => ?_⟩
    simpa using hw
  | cons w rest ih =>
    have hw := hws w List.mem_cons_self
    refine ⟨⟨hw, hidle.mutex, hidle.grip⟩, fun _ => ⟨rfl, fun _ => ⟨rfl, fun _ =>
      ⟨⟨hw, .inr List.mem_cons_self⟩, fun _ => ?_⟩⟩⟩⟩
    refine Dialogue.Follows.mono (ih (fun v hv => hws v (List.mem_cons_of_mem w hv)) ?_) ?_
    · exact ⟨hidle.grip, rfl, by simp [Hand.after, hidle.due]⟩
    · rintro _ h' ⟨hidle', htold⟩
      refine ⟨hidle', fun v hv => htold v ?_⟩
      simp only [Hand.after, List.mem_cons, true_or, if_true]
      rcases hv with hv | hv
      · rcases List.mem_cons.mp hv with rfl | hv
        · exact .inr (.inl rfl)
        · exact .inl hv
      · exact .inr (.inr hv)

/-- What keeps a grip as an act keeps it as a duty, and notifies of every letter. -/
theorem ofAct_follows {t : Act σ α} {R : α → Grip → Prop} (ht : Act.Grips sweeps h.grip t R)
    (hmutex : h.mutex = none) (hdue : h.due = []) :
    Follows workers sweeps h (ofAct workers t) fun a h' =>
      R a h'.grip ∧ h'.mutex = none ∧ h'.due = [] := by
  induction t generalizing h with
  | done a => exact ⟨ht, hmutex, hdue⟩
  | ask x next ih =>
    refine ⟨⟨ht.1, hmutex, hdue⟩, fun y => ?_⟩
    have hnext := ht.2 y
    by_cases hput : x.isPut
    · have haway : h.grip = .away ∧ h.grip.after x y = .away := by
        cases x with
        | put b m =>
          have hgrip : h.grip = .away := ht.1
          exact ⟨hgrip, by rw [hgrip]; rfl⟩
        | _ => cases hput
      simp only [hput, if_true]
      refine Dialogue.Follows.bind
        (wakeAll_follows (fun w hw => List.mem_range.mp hw) haway.2 hmutex) ?_
      rintro _ h' ⟨hgrip', hmutex', hdue'⟩
      refine ih y ?_ hmutex' ?_
      · rw [hgrip', ← haway.2]
        exact hnext
      · rw [hdue']
        simp [Hand.after, hput]
    · simp only [hput]
      exact ih y hnext hmutex (by simp [Hand.after, hput, hdue])

end Duty

/-! ## The places of a worker -/

namespace Place

variable {workers w : Nat} {h : Hand}

/-- The hand of worker `w` when it is there. -/
def Fits (workers w : Nat) (h : Hand) : Place σ → Prop
  | .sweeping x next => Duty.Follows workers true h (.ask x next) fun _ h => h.Idle
  | .look x next => h.mutex = some w ∧ h.due = [] ∧
    Act.Grips false h.grip (.ask x next) (fun _ g => g = .away) ∧
    Dialogue.All (fun x => x.aloof ∨ x = .lock .leaveRead) (.ask x next)
  | .peek | .peeked _ | .test | .enter | .check | .checked _ | .doze =>
    h.grip = .away ∧ h.mutex = some w ∧ h.due = []
  | .hired | .head | .ready | .swept | .asleep | .quitting | .gone => h.Idle

theorem fits_ofSweep {d : Duty σ Unit}
    (hd : Duty.Follows workers true h d fun _ h => h.Idle) : (ofSweep d).Fits workers w h := by
  cases d with
  | done u => exact hd
  | ask x next => exact hd

theorem fits_ofLook {t : Act σ Bool} (hmutex : h.mutex = some w) (hdue : h.due = [])
    (ht : Act.Grips false h.grip t fun _ g => g = .away)
    (hall : t.All fun x => x.aloof ∨ x = .lock .leaveRead) : (ofLook t).Fits workers w h := by
  cases t with
  | done found => cases found <;> exact ⟨ht, hmutex, hdue⟩
  | ask x next => exact ⟨hmutex, hdue, ht, hall⟩

theorem isPut_eq_false {x : Atom σ} (hx : x.aloof ∨ x = .lock .leaveRead) : x.isPut = false := by
  rcases hx with hx | rfl
  · cases x <;> first | rfl | cases hx
  · rfl

/-- What a worker does next, its hand may do, and fits where that leads. -/
theorem Fits.next {place : Place σ} (hfits : place.Fits workers w h) (hw : w < workers)
    {x : Motion σ} {f : x.Answer → Place σ} (hnext : place.next w = some ⟨x, f⟩) :
    h.may workers x ∧ ∀ y, (f y).Fits workers w (h.after workers x y) := by
  cases place with
  | ready | gone => cases hnext
  | hired | quitting =>
    cases hnext
    exact ⟨trivial, fun _ => hfits⟩
  | head | swept | asleep =>
    cases hnext
    exact ⟨⟨hw, hfits.mutex, hfits.grip⟩, fun _ => ⟨hfits.grip, rfl, hfits.due⟩⟩
  | peek | check =>
    cases hnext
    exact ⟨hfits.2.1, fun _ => hfits⟩
  | peeked stop | checked stop =>
    cases hnext
    refine ⟨hfits.2.1, fun _ => ?_⟩
    cases stop <;> exact ⟨hfits.1, rfl, hfits.2.2⟩
  | sweeping x next =>
    cases hnext
    exact ⟨Hand.may_of_allows hfits.1, fun y => fits_ofSweep (hfits.2 y)⟩
  | test =>
    cases hnext
    refine ⟨hfits.2.1, fun stop => ?_⟩
    cases stop <;> exact hfits
  | enter =>
    cases hnext
    refine ⟨hfits.1, fun _ => fits_ofLook hfits.2.1 hfits.2.2 ?_ Act.search_all⟩
    exact Act.search_grips
  | look x next =>
    cases hnext
    obtain ⟨hmutex, hdue, hgrips, hall⟩ := hfits
    refine ⟨Hand.grip_allows_true hgrips.1, fun y => ?_⟩
    refine fits_ofLook hmutex ?_ (hgrips.2 y) (hall.2 y)
    simp [Hand.after, isPut_eq_false hall.1, hdue]
  | doze =>
    cases hnext
    exact ⟨hfits.2.1, fun _ => ⟨hfits.1, rfl, hfits.2.2⟩⟩

end Place

end ActorSystem
