import ActorSystem.Proofs.Shift.Accounts

/-!
# Stopping

A worker's flag is set under the worker's mutex, and nobody takes it back. So what a worker has
read of its flag holds for as long as it keeps the mutex (`Place.Knows`), and it does not fall
asleep with the flag set. Whoever sets the flag and notifies the worker after that leaves it awake
for good.

* `Heeded.step`: what the workers know of their flags, and whoever set a flag of its worker.
* `Site.Halted.step`: a worker that was told to stop stays up.
* `Steady.halted_play`: it begins one sweep at most, for which it had looked at the flag before.
-/

namespace ActorSystem

variable {σ : Signature} {company : Company σ} {workers w : Nat} {c c' : Shift σ}

/-! ## Flags and naps -/

namespace Motion

variable {x : Motion σ} {s : Site σ}

theorem stop_effect (h : x ≠ .signal w .setStop) :
    ((x.effect s).signals w).stop = (s.signals w).stop := by
  cases x with
  | atom x => rfl
  | signal v op =>
    show (Function.update s.signals v ((s.signals v).after op) w).stop = _
    rw [Function.update_apply]
    split
    · rename_i hwv
      subst hwv
      cases op <;> first | rfl | exact absurd rfl h
    · rfl

theorem stop_setStop : (((signal w .setStop : Motion σ).effect s).signals w).stop = true := by
  simp [effect, Signal.after]

theorem stop_mono (h : (s.signals w).stop) : ((x.effect s).signals w).stop := by
  by_cases hx : x = .signal w .setStop
  · rw [hx]
    exact stop_setStop
  · rw [stop_effect hx]
    exact h

theorem parked_effect (h : x ≠ .signal w .park) (hparked : ((x.effect s).signals w).parked) :
    (s.signals w).parked := by
  cases x with
  | atom x => exact hparked
  | signal v op =>
    replace hparked : (Function.update s.signals v ((s.signals v).after op) w).parked := hparked
    rw [Function.update_apply] at hparked
    split at hparked
    · rename_i hwv
      subst hwv
      cases op <;> first | exact absurd rfl h | exact hparked | cases hparked
    · exact hparked

theorem parked_notify : (((signal w .notify : Motion σ).effect s).signals w).parked = false := by
  simp [effect, Signal.after]

end Motion

/-- The worker's flag is set, and it is up. -/
def Site.Halted (s : Site σ) (w : Nat) : Prop :=
  (s.signals w).stop = true ∧ (s.signals w).parked = false

/-! ## What a worker knows -/

namespace Place

/-- What a worker knows there of its flag. -/
def Knows (stop : Bool) : Place σ → Prop
  | peeked b | checked b => stop = b
  | enter | look .. | doze => stop = false
  | quitting | gone => stop = true
  | hired | head | peek | ready | sweeping .. | swept | test | check | asleep => True

theorem knows_ofSweep {stop : Bool} (d : Duty σ Unit) : (ofSweep d).Knows stop := by
  cases d <;> trivial

theorem knows_ofLook (t : Act σ Bool) : (ofLook t).Knows false := by
  cases t with
  | done found => cases found <;> trivial
  | ask x next => rfl

variable {place : Place σ}

/-- The flag may be set when the worker does not have its mutex. -/
theorem Knows.set {stop : Bool} {h : Hand} (hknows : place.Knows stop)
    (hfits : place.Fits workers w h) (hmutex : h.mutex ≠ some w) : place.Knows true := by
  cases place with
  | peeked | checked | enter | doze => exact absurd hfits.2.1 hmutex
  | look => exact absurd hfits.1 hmutex
  | quitting | gone => rfl
  | _ => trivial

/-- What a worker reads of its flag is so. -/
theorem Knows.next {s : Site σ} (hknows : place.Knows (s.signals w).stop) {x : Motion σ}
    {f : x.Answer → Place σ} (hnext : place.next w = some ⟨x, f⟩) :
    (f (x.answer s)).Knows ((x.effect s).signals w).stop := by
  cases place with
  | ready | gone => cases hnext
  | sweeping x next =>
    cases hnext
    exact knows_ofSweep _
  | hired | head | swept | asleep =>
    cases hnext
    trivial
  | peek | check =>
    cases hnext
    exact Motion.stop_effect (by nofun)
  | peeked stop | checked stop =>
    cases hnext
    cases stop with
    | true => exact (Motion.stop_effect (by nofun)).trans hknows
    | false => trivial
  | test =>
    cases hnext
    show Knows _ (if (s.signals w).stop then check else enter)
    split
    · trivial
    · exact (Motion.stop_effect (by nofun)).trans (Bool.eq_false_iff.mpr ‹_›)
  | enter | look =>
    cases hnext
    have hstop : (s.signals w).stop = false := hknows
    show Knows (s.signals w).stop _
    rw [hstop]
    exact knows_ofLook _
  | doze =>
    cases hnext
    trivial
  | quitting =>
    cases hnext
    exact hknows

end Place

/-- Nobody but a worker with nothing to do falls asleep. -/
theorem Lawful.doze_of_park (hl : Lawful workers c) {t : Thread}
    (h : c.next workers t = some (.signal w .park)) : c.places w = .doze := by
  rcases Shift.next_cases h with ⟨v, f, rfl, -, hnext⟩ | ⟨k, call, f, rfl, hk⟩
  · have hfits := hl.places v
    cases hplace : c.places v with
    | doze =>
      rw [hplace] at hnext
      cases hnext
      exact hplace
    | sweeping y next =>
      rw [hplace] at hnext hfits
      cases hnext
      exact hfits.1.elim
    | _ =>
      rw [hplace] at hnext
      cases hnext
  · have hsuits := hl.calls k
    rw [hk] at hsuits
    exact hsuits.1.elim

/-! ## What everybody knows -/

structure Heeded (workers : Nat) (c : Shift σ) : Prop where
  known : ∀ w, (c.places w).Knows (c.site.signals w).stop
  flagged : ∀ t w, w ∈ (c.hand workers t).flagged → (c.site.signals w).stop
  told : ∀ t w, w ∈ (c.hand workers t).told → c.site.Halted w
  ended : .stopAll ∈ c.ended → ∀ w, w < workers → c.site.Halted w

namespace Heeded

theorem start (config : Config) (env : σ.Env) : Heeded workers (Shift.start config env) where
  known _ := trivial
  flagged _ _ := nofun
  told _ _ := nofun
  ended := nofun

theorem known_step (hl : Lawful workers c) (ha : Accounts workers c)
    (hknows : (c.places w).Knows (c.site.signals w).stop) {m : Shift.Move σ}
    (h : c.step company workers m = some c') : (c'.places w).Knows (c'.site.signals w).stop := by
  cases Shift.turn h w with
  | begins limit d _ place place' site =>
    rw [place']
    exact Place.knows_ofSweep d
  | goes x f _ _ next _ place' site =>
    rw [place', site]
    exact hknows.next next
  | stays _ _ place' site =>
    rw [place']
    obtain site | ⟨t, x, hother, hnext, site⟩ := site
    · rw [site]
      exact hknows
    · rw [site]
      by_cases hx : x = .signal w .setStop
      · subst hx
        rw [Motion.stop_setStop]
        refine hknows.set (hl.places w) fun hmutex => hother ?_
        exact (ha.mutexes w).alone t (.worker w) (hl.may_next hnext) hmutex
      · rw [Motion.stop_effect hx]
        exact hknows

end Heeded

theorem Site.Halted.step (hl : Lawful workers c) (hh : Heeded workers c) {m : Shift.Move σ}
    (h : c.step company workers m = some c') (hw : c.site.Halted w) : c'.site.Halted w := by
  cases Shift.change h with
  | quiet site _ =>
    rw [site]
    exact hw
  | moved t x _ next _ site _ =>
    rw [site]
    refine ⟨Motion.stop_mono hw.1, Bool.eq_false_iff.mpr fun hparked => ?_⟩
    by_cases hx : x = .signal w .park
    · have hdoze := hh.known w
      rw [hl.doze_of_park (hx ▸ next)] at hdoze
      exact Bool.false_ne_true (hdoze.symm.trans hw.1)
    · exact nomatch (Motion.parked_effect hx hparked).symm.trans hw.2

namespace Heeded

theorem flagged_step (hh : Heeded workers c) {m : Shift.Move σ}
    (h : c.step company workers m = some c') (t : Thread) (w : Nat)
    (hw : w ∈ (c'.hand workers t).flagged) : (c'.site.signals w).stop := by
  cases Shift.change h with
  | quiet site hand =>
    rw [site]
    exact hh.flagged t w (hand ▸ hw)
  | moved u x _ _ _ site hand =>
    rw [site]
    rw [hand, Function.update_apply] at hw
    split at hw
    · rename_i htu
      subst htu
      cases x with
      | atom x => exact hh.flagged t w hw
      | signal v op =>
        cases op with
        | setStop =>
          rcases List.mem_cons.mp hw with rfl | hw
          · exact Motion.stop_setStop
          · exact Motion.stop_mono (hh.flagged t w hw)
        | _ => exact Motion.stop_mono (hh.flagged t w hw)
    · exact Motion.stop_mono (hh.flagged t w hw)

theorem told_step (hl : Lawful workers c) (hh : Heeded workers c) {m : Shift.Move σ}
    (h : c.step company workers m = some c') (t : Thread) (w : Nat)
    (hw : w ∈ (c'.hand workers t).told) : c'.site.Halted w := by
  have hstays : w ∈ (c.hand workers t).told → c'.site.Halted w := fun hw =>
    (hh.told t w hw).step hl hh h
  cases Shift.change h with
  | quiet _ hand => exact hstays (hand ▸ hw)
  | moved u x _ _ _ site hand =>
    rw [hand, Function.update_apply] at hw
    split at hw
    · rename_i htu
      subst htu
      cases x with
      | atom x => exact hstays hw
      | signal v op =>
        cases op with
        | notify =>
          simp only [Hand.after] at hw
          split at hw
          · rename_i hflagged
            rcases List.mem_cons.mp hw with rfl | hw
            · rw [site]
              exact ⟨Motion.stop_mono (hh.flagged t w hflagged), Motion.parked_notify⟩
            · exact hstays hw
          · exact hstays hw
        | _ => exact hstays hw
    · exact hstays hw

theorem ended_step (hl : Lawful workers c) (hh : Heeded workers c) {m : Shift.Move σ}
    (h : c.step company workers m = some c') (hstop : .stopAll ∈ c'.ended) (w : Nat)
    (hw : w < workers) : c'.site.Halted w := by
  have hstays : .stopAll ∈ c.ended → c'.site.Halted w := fun hstop =>
    (hh.ended hstop w hw).step hl hh h
  rcases Shift.step_cases h with ⟨_, _, _, _, rfl⟩ | ⟨_, _, _, _, _, _, _, rfl⟩ |
    ⟨_, _, _, _, rfl⟩ | ⟨k, x, -, hk, rfl⟩ | ⟨_, _, _, _, _, _, _, rfl⟩
  · exact hstays hstop
  · exact hstays hstop
  · exact hstays hstop
  · rcases List.mem_append.mp hstop with hstop | hx
    · exact hstays hstop
    · obtain rfl := List.mem_singleton.mp hx
      have hover := hl.calls k
      rw [hk] at hover
      exact hh.told (.caller k) w (hover.2 rfl w hw)
  · exact hstays hstop

theorem step (hl : Lawful workers c) (ha : Accounts workers c) (hh : Heeded workers c)
    {m : Shift.Move σ} (h : c.step company workers m = some c') : Heeded workers c' where
  known w := known_step hl ha (hh.known w) h
  flagged := hh.flagged_step h
  told := hh.told_step hl h
  ended := hh.ended_step hl h

end Heeded

/-! ## Runs -/

/-- What holds in a shift from its beginning on. -/
structure Steady (workers : Nat) (c : Shift σ) : Prop where
  lawful : Lawful workers c
  accounts : Accounts workers c
  heeded : Heeded workers c

namespace Steady

theorem start (config : Config) (env : σ.Env) : Steady workers (Shift.start config env) :=
  ⟨.start config env, .start config env, .start config env⟩

theorem step (hc : company.Civil) (hs : Steady workers c) {m : Shift.Move σ}
    (h : c.step company workers m = some c') : Steady workers c' :=
  ⟨hs.lawful.step hc h, hs.accounts.step hs.lawful h, hs.heeded.step hs.lawful hs.accounts h⟩

theorem play (hc : company.Civil) (hs : Steady workers c) {ms : List (Shift.Move σ)}
    (h : c.play company workers ms = some c') : Steady workers c' :=
  Moves.play_induction (fun _ _ _ hs h => hs.step hc h) hs h

end Steady

/-! ## The last sweep -/

/-- The worker begins a sweep. -/
def Shift.Move.begins (w : Nat) : Move σ → Bool
  | .sweep v _ => v = w
  | .work _ | .call .. | .go _ => false

/-- How many sweeps a worker begins from there on with its flag set. -/
def Place.sweepsLeft : Place σ → Nat
  | ready => 1
  | _ => 0

theorem Place.sweepsLeft_ofSweep (d : Duty σ Unit) : (ofSweep d).sweepsLeft = 0 := by
  cases d <;> rfl

theorem Place.sweepsLeft_le (place : Place σ) : place.sweepsLeft ≤ 1 := by
  cases place <;> first | exact Nat.le_refl 1 | exact Nat.zero_le 1

/-- With its flag set, a worker does not go on to a sweep. -/
theorem Place.sweepsLeft_next {place : Place σ} (hknows : place.Knows true) {x : Motion σ}
    {f : x.Answer → Place σ} (hnext : place.next w = some ⟨x, f⟩) (y : x.Answer) :
    (f y).sweepsLeft = 0 := by
  cases place with
  | ready | gone => cases hnext
  | sweeping x next =>
    cases hnext
    exact sweepsLeft_ofSweep _
  | peeked stop | checked stop =>
    obtain rfl : true = stop := hknows
    cases hnext
    rfl
  | test =>
    cases hnext
    cases (y : Bool) <;> rfl
  | enter | look => cases hknows
  | _ =>
    cases hnext
    rfl

namespace Steady

theorem sweeps_step (hs : Steady workers c) (hw : c.site.Halted w) {m : Shift.Move σ}
    (h : c.step company workers m = some c') :
    (if m.begins w then 1 else 0) + (c'.places w).sweepsLeft ≤ (c.places w).sweepsLeft := by
  have hknows := hs.heeded.known w
  rw [hw.1] at hknows
  cases Shift.turn h w with
  | begins limit d move place place' =>
    rw [move, place, place', Place.sweepsLeft_ofSweep]
    simp [Shift.Move.begins, Place.sweepsLeft]
  | goes x f move _ next _ place' =>
    rw [move, place', Place.sweepsLeft_next hknows next]
    exact Nat.zero_le _
  | stays begins _ place' =>
    have hnot : m.begins w = false := by
      cases m with
      | sweep v limit => exact decide_eq_false fun hv => begins limit (by rw [hv])
      | _ => rfl
    rw [place', hnot]
    simp

/-- From when a worker is told to stop, it stays up, and begins at most one sweep. -/
theorem halted_play (hc : company.Civil) (hs : Steady workers c) (hw : c.site.Halted w)
    {ms : List (Shift.Move σ)} (h : c.play company workers ms = some c') :
    c'.site.Halted w ∧
      ms.countP (·.begins w) + (c'.places w).sweepsLeft ≤ (c.places w).sweepsLeft := by
  induction ms generalizing c with
  | nil =>
    cases h
    exact ⟨hw, Nat.le_of_eq (Nat.zero_add _)⟩
  | cons m ms ih =>
    obtain ⟨r, hr, hplay⟩ := Moves.play_cons.mp h
    have hfirst := hs.sweeps_step hw hr
    obtain ⟨hhalted, hrest⟩ := ih (hs.step hc hr) (hw.step hs.lawful hs.heeded hr) hplay
    refine ⟨hhalted, ?_⟩
    rw [List.countP_cons]
    omega

end Steady

end ActorSystem
