import ActorSystem.Proofs.Mute
import ActorSystem.Proofs.Shift.Stopping

/-!
# No wake-up gets lost

Whenever an actor of the table has mail and nobody drains it, somebody is going to see to it. That
is a thread that has workers yet to notify of a letter, or a worker that looks for work before it
sleeps (`Awake`), or one whose look has not come past that actor (`Place.Looks`).

Work turns up with a letter, whose bearer notifies everybody; at the end of a batch, whose worker
looks for work after its sweep; or with an actor whose mailbox had got letters before the actor
was in the table. The last is why there is more to say than of the table: letters in the mailbox
that a writer of the table has at hand keep somebody awake who cannot look before that writer is
done (`Alert.boxed`).

* `search_meets`: a look, whatever goes on meanwhile, sees an actor that waits all along.
* `Awake.step`: who is awake stays so up to the look for work.
* `no_wakeup_gets_lost`: when all workers sleep and nobody is about to notify them, there is no
  work; and from the end of a call to stop on, no worker sleeps, and each begins one sweep at most.
-/

namespace ActorSystem

variable {σ : Signature} {α β : Type} {company : Company σ} {workers w : Nat} {c c' : Shift σ}
  {a : ActorRef}

/-! ## Actors that wait -/

namespace Pool

/-- The actor is in the table, has mail, and is not being drained. -/
def Waits (p : Pool σ) (a : ActorRef) : Prop := a ∈ p.table ∧ p.needsProcessing a

theorem hasPendingWork_iff {p : Pool σ} : p.hasPendingWork ↔ ∃ a, p.Waits a := List.any_eq_true

theorem needsProcessing_iff {p : Pool σ} :
    p.needsProcessing a ↔ p.phaseOf a = some .idle ∧
      ∃ b, p.boxOf a = some b ∧ p.office.mail b ≠ [] := by
  rw [needsProcessing, Bool.and_eq_true, isIdle_iff, Bool.not_eq_true', List.isEmpty_eq_false_iff]
  refine and_congr_right fun _ => ?_
  cases hbox : p.boxOf a with
  | none => simp [mailOf_eq_nil_of_boxOf hbox]
  | some b => simp [mailOf_eq_of_boxOf hbox]

end Pool

/-- Letters come into a mailbox by `put` only. -/
theorem Atom.mail_of_effect {x : Atom σ} {s : World σ} {b : BoxRef} (hx : ∀ f, x ≠ .alter f)
    (h : (x.effect s).pool.office.mail b ≠ []) : x.isPut ∨ s.pool.office.mail b ≠ [] := by
  rw [mail_effect] at h
  cases x with
  | alter f => exact absurd rfl (hx f)
  | put c m => exact .inl rfl
  | takeMail a =>
    refine .inr fun hnil => h ?_
    simp [hnil]
  | _ => exact .inr h

/-- How an actor comes to wait. -/
theorem Atom.waits_of_effect {x : Atom σ} {s : World σ} (hx : ∀ f, x ≠ .alter f)
    (h : (x.effect s).pool.Waits a) :
    s.pool.Waits a ∨ x.isPut ∨ (∃ a o, x = .finish a o) ∨
      ∃ y, x = .enroll y ∧ s.pool.office.mail y.box ≠ [] := by
  by_cases hput : x.isPut
  · exact .inr (.inl hput)
  by_cases hfinish : ∃ a o, x = .finish a o
  · exact .inr (.inr (.inl hfinish))
  obtain ⟨hmem, hneeds⟩ := h
  obtain ⟨hidle, b, hbox, hmail⟩ := Pool.needsProcessing_iff.mp hneeds
  replace hmail := (Atom.mail_of_effect hx hmail).resolve_left hput
  rw [table_effect] at hmem
  rw [phaseOf_effect] at hidle
  have hold : a ∈ s.pool.table → s.pool.phaseOf a = some .idle → s.pool.boxOf a = some b →
      s.pool.Waits a := fun hmem hidle hbox =>
    ⟨hmem, Pool.needsProcessing_iff.mpr ⟨hidle, b, hbox, hmail⟩⟩
  cases x with
  | alter f => exact absurd rfl (hx f)
  | put c m => exact absurd rfl hput
  | finish a o => exact absurd ⟨a, o, rfl⟩ hfinish
  | enroll y =>
    rcases Atom.boxOf_enroll hbox with ⟨-, rfl⟩ | ⟨hne, hbox⟩
    · exact .inr (.inr (.inr ⟨y, rfl, hmail⟩))
    · refine .inl (hold ?_ (by simpa [hne] using hidle) hbox)
      exact (List.mem_append.mp hmem).resolve_right (by simpa using hne)
  | claim d =>
    rw [boxOf_effect] at hbox
    dsimp only at hidle
    split at hidle
    · cases hidle
    · exact .inl (hold hmem hidle hbox)
  | sicken d =>
    rw [boxOf_effect] at hbox
    dsimp only at hidle
    split at hidle
    · simp at hidle
    · exact .inl (hold hmem hidle hbox)
  | eraseSick =>
    rw [boxOf_effect] at hbox
    exact .inl (hold (List.mem_filter.mp hmem).1 hidle hbox)
  | erase d =>
    rw [boxOf_effect] at hbox
    exact .inl (hold (List.mem_of_mem_erase hmem) hidle hbox)
  | _ =>
    rw [boxOf_effect] at hbox
    exact .inl (hold hmem hidle hbox)

/-! ## What a look sees -/

namespace Act

/-- What the act comes to is an `R`, if it meets only worlds of which `P` holds. -/
def Meets (P : World σ → Prop) : Act σ α → (α → Prop) → Prop
  | .done r, R => R r
  | .ask x next, R => ∀ s, P s → Meets P (next (x.answer s)) R

variable {P : World σ → Prop} {R : α → Prop} {T : β → Prop}

theorem Meets.bind {t : Act σ α} {f : α → Act σ β} (ht : Meets P t R)
    (hf : ∀ r, R r → Meets P (f r) T) : Meets P (t >>= f) T := by
  induction t with
  | done r => exact hf r ht
  | ask x next ih => exact fun s hs => ih _ (ht s hs)

theorem Meets.mono {R' : α → Prop} {t : Act σ α} (ht : Meets P t R) (h : ∀ r, R r → R' r) :
    Meets P t R' := by
  induction t with
  | done r => exact h r ht
  | ask x next ih => exact fun s hs => ih _ (ht s hs)

theorem meets_of_forall (t : Act σ α) (h : ∀ r, R r) : Meets P t R := by
  induction t with
  | done r => exact h r
  | ask x next ih => exact fun s _ => ih _

theorem needsProcessing_meets :
    Meets (fun s => s.pool.Waits a) (needsProcessing a : Act σ Bool) (· = true) := by
  intro s hs
  obtain ⟨hidle, hmail⟩ := Bool.and_eq_true_iff.mp hs.2
  show Meets _ (if s.pool.isIdle a then _ else _) _
  rw [if_pos hidle]
  intro s' hs'
  have hmail' := (Bool.and_eq_true_iff.mp hs'.2).2
  show decide ((s'.pool.mailOf a).length ≠ 0) = true
  cases hnone : s'.pool.mailOf a with
  | nil =>
    rw [hnone] at hmail'
    cases hmail'
  | cons m rest => rfl

theorem anyNeedsProcessing_meets {actors : List ActorRef} (ha : a ∈ actors) :
    Meets (fun s => s.pool.Waits a) (anyNeedsProcessing actors : Act σ Bool) (· = true) := by
  induction actors with
  | nil => cases ha
  | cons d rest ih =>
    have hhead : Meets (fun s => s.pool.Waits a) (needsProcessing d : Act σ Bool)
        fun found => d = a → found = true := by
      by_cases hda : d = a
      · subst hda
        exact needsProcessing_meets.mono fun _ hfound _ => hfound
      · exact meets_of_forall _ fun _ h => absurd h hda
    refine hhead.bind fun found hfound => ?_
    cases found with
    | true => rfl
    | false =>
      refine ih ((List.mem_cons.mp ha).resolve_left fun hda => ?_)
      exact Bool.false_ne_true (hfound hda.symm)

theorem search_meets : Meets (fun s => s.pool.Waits a) (search : Act σ Bool) (· = true) := by
  intro s hs
  refine Meets.bind (t := anyNeedsProcessing s.pool.table) (anyNeedsProcessing_meets hs.1) ?_
  exact fun found hfound _ _ => hfound

end Act

/-! ## Who is awake -/

namespace Place

/-- From there, a worker that does not stop looks for work before it sleeps. -/
def Watches (parked : Bool) : Place σ → Prop
  | look .. | doze => False
  | asleep => parked = false
  | _ => True

/-- The look is not past this actor. -/
def Looks (a : ActorRef) : Place σ → Prop
  | look x next => Act.Meets (fun s => s.pool.Waits a) (.ask x next) (· = true)
  | _ => False

theorem watches_ofSweep {parked : Bool} (d : Duty σ Unit) : (ofSweep d).Watches parked := by
  cases d <;> trivial

theorem ofLook_of_meets {t : Act σ Bool} {parked : Bool}
    (h : Act.Meets (fun s => s.pool.Waits a) t (· = true)) :
    (ofLook t).Watches parked ∨ (ofLook t).Looks a := by
  cases t with
  | done found =>
    obtain rfl : found = true := h
    exact .inl trivial
  | ask x next => exact .inr h

/-- A worker gets on to its look. -/
theorem Watches.next {place : Place σ} {parked parked' : Bool} (h : place.Watches parked)
    {x : Motion σ} {f : x.Answer → Place σ} (hnext : place.next w = some ⟨x, f⟩) (y : x.Answer) :
    (f y).Watches parked' ∨ place = .enter := by
  cases place with
  | ready | gone => cases hnext
  | look | doze => exact h.elim
  | enter => exact .inr rfl
  | sweeping x next =>
    cases hnext
    exact .inl (watches_ofSweep _)
  | peeked stop | checked stop =>
    cases hnext
    cases stop <;> exact .inl trivial
  | test =>
    cases hnext
    cases (y : Bool) <;> exact .inl trivial
  | _ =>
    cases hnext
    exact .inl trivial

end Place

/-- Somebody has workers yet to notify, or is a worker that looks for work before it sleeps. -/
def Shift.Awake (workers : Nat) (c : Shift σ) : Prop :=
  (∃ t, (c.hand workers t).due ≠ []) ∨
    ∃ w, w < workers ∧ (c.places w).Watches (c.site.signals w).parked

/-- A worker that comes to the table to look for work, which no writer has. -/
def Shift.Enters (workers : Nat) (c c' : Shift σ) : Prop :=
  c.site.world.pool.tableLock.hasWriter = false ∧
    ∃ w, w < workers ∧ c'.places w = .ofLook Act.search

theorem LockState.hasWriter_of_enterRead {s : LockState} (h : s.admits .enterRead) :
    s.hasWriter = false := by
  simpa using (Bool.and_eq_true_iff.mp h).1

namespace Shift.Awake

theorem of_watches (hw : w < workers) (h : (c.places w).Watches (c.site.signals w).parked) :
    c.Awake workers :=
  .inr ⟨w, hw, h⟩

/-- A letter has been put. -/
theorem of_put (hpos : 0 < workers) {t : Thread} {x : Atom σ} (hput : x.isPut)
    (hhand : c'.hand workers = Function.update (c.hand workers) t
      ((c.hand workers t).after workers (.atom x) (x.answer c.site.world))) :
    c'.Awake workers := by
  refine .inl ⟨t, ?_⟩
  rw [hhand, Function.update_self]
  simp only [Hand.after, hput, if_true]
  exact List.ne_nil_of_mem (List.mem_range.mpr hpos)

/-- Whoever was notified is up, or will look for work before it sleeps. -/
theorem of_notify (hs : Steady workers c) {m : Move σ} (h : c.step company workers m = some c')
    {t : Thread} (hm : m = .of t) (hnext : c.next workers t = some (.signal w .notify))
    (hsite : c'.site = (Motion.signal w .notify).effect c.site) : c'.Awake workers := by
  have hmay := hs.lawful.may_next hnext
  refine of_watches hmay.1 ?_
  have hparked : (c'.site.signals w).parked = false := by
    rw [hsite]
    exact Motion.parked_notify
  cases turn h w with
  | begins limit d _ _ place' =>
    rw [place']
    exact Place.watches_ofSweep d
  | goes x f move lt next _ place' =>
    obtain rfl : t = .worker w := by
      cases t <;> cases hm.symm.trans move
      rfl
    rw [next_worker lt next] at hnext
    cases hnext
    rw [place']
    -- On its rounds a worker notifies nobody, so this is from within its sweep.
    cases hplace : c.places w with
    | sweeping x f =>
      rw [hplace] at next
      cases next
      exact Place.watches_ofSweep _
    | _ =>
      rw [hplace] at next
      cases next
  | stays _ goes place' =>
    have hother : t ≠ .worker w := by
      rintro rfl
      exact goes hm
    -- The worker would have its mutex there, and would have seen no flag.
    have hapart : (c.hand workers (.worker w)).mutex = some w →
        (c.site.signals w).stop = false → False := by
      intro hmutex hstop
      rcases hmay.2 with hmine | hflagged
      · exact hother ((hs.accounts.mutexes w).alone _ _ hmine hmutex)
      · exact Bool.false_ne_true (hstop.symm.trans (hs.heeded.flagged t w hflagged))
    have hfits := hs.lawful.places w
    have hknows := hs.heeded.known w
    rw [place', hparked]
    cases hplace : c.places w with
    | look x next =>
      rw [hplace] at hfits hknows
      exact hapart hfits.1 hknows
    | doze =>
      rw [hplace] at hfits hknows
      exact hapart hfits.2.1 hknows
    | _ => trivial

theorem step_of_due (hs : Steady workers c) (hpos : 0 < workers) {m : Move σ}
    (h : c.step company workers m = some c') {t : Thread} (ht : (c.hand workers t).due ≠ []) :
    c'.Awake workers := by
  cases change h with
  | quiet _ hand => exact .inl ⟨t, hand ▸ ht⟩
  | moved u x move next _ site hand =>
    by_cases htu : t = u
    · subst htu
      have hkept : ((c.hand workers t).after workers x (x.answer c.site)).due ≠ [] →
          c'.Awake workers := by
        intro hdue
        refine .inl ⟨t, ?_⟩
        rw [hand, Function.update_self]
        exact hdue
      cases x with
      | atom x =>
        by_cases hput : x.isPut
        · exact of_put hpos hput hand
        · exact hkept (by simpa [Hand.after, hput] using ht)
      | signal v op =>
        cases op with
        | notify => exact of_notify hs h move next site
        | _ => exact hkept ht
    · refine .inl ⟨t, ?_⟩
      rw [hand, Function.update_of_ne htu]
      exact ht

/-- Nobody else puts a worker to sleep. -/
theorem parked_kept (hl : Lawful workers c) {t : Thread} {x : Motion σ}
    (hnext : c.next workers t = some x) (h : (c.places w).Watches (c.site.signals w).parked) :
    (c.places w).Watches ((x.effect c.site).signals w).parked := by
  cases hplace : c.places w with
  | asleep =>
    rw [hplace] at h
    refine Bool.eq_false_iff.mpr fun hparked => ?_
    by_cases hx : x = .signal w .park
    · cases hplace.symm.trans (hl.doze_of_park (hx ▸ hnext))
    · exact nomatch (Motion.parked_effect hx hparked).symm.trans h
  | look | doze =>
    rw [hplace] at h
    exact h.elim
  | _ => trivial

theorem step (hs : Steady workers c) (hpos : 0 < workers) {m : Move σ}
    (h : c.step company workers m = some c') (ha : c.Awake workers) :
    c'.Awake workers ∨ Enters workers c c' := by
  obtain ⟨t, ht⟩ | ⟨w, hw, hwatches⟩ := ha
  · exact .inl (step_of_due hs hpos h ht)
  cases turn h w with
  | begins limit d _ _ place' =>
    refine .inl (of_watches hw ?_)
    rw [place']
    exact Place.watches_ofSweep d
  | goes x f _ _ next ready place' =>
    rcases hwatches.next next (x.answer c.site) with hwatches | henter
    · refine .inl (of_watches hw ?_)
      rw [place']
      exact hwatches
    · rw [henter] at next
      cases next
      exact .inr ⟨LockState.hasWriter_of_enterRead ready, w, hw, place'⟩
  | stays _ _ place' site =>
    refine .inl (of_watches hw ?_)
    rw [place']
    obtain site | ⟨t, x, -, next, site⟩ := site
    · rw [site]
      exact hwatches
    · rw [site]
      exact parked_kept hs.lawful next hwatches

end Shift.Awake

/-! ## Nobody waits unseen -/

/-- Only sweeping workers let go of actors. -/
theorem Lawful.sweeping_of_finish (hl : Lawful workers c) {t : Thread} {o : Outcome}
    (h : c.next workers t = some (.atom (.finish a o))) :
    ∃ w f, t = .worker w ∧ c.places w = .sweeping (.atom (.finish a o)) f := by
  rcases Shift.next_cases h with ⟨w, f, rfl, -, hnext⟩ | ⟨k, call, f, rfl, hk⟩
  · have hfits := hl.places w
    cases hplace : c.places w with
    | sweeping x f =>
      rw [hplace] at hnext
      cases hnext
      exact ⟨w, f, rfl, hplace⟩
    | look x f =>
      rw [hplace] at hnext hfits
      cases hnext
      rcases hfits.2.2.2.1 with haloof | hleave
      · cases haloof
      · cases hleave
    | _ =>
      rw [hplace] at hnext
      cases hnext
  · have hsuits := hl.calls k
    rw [hk] at hsuits
    exact absurd hsuits.1.1 Bool.false_ne_true

theorem Grip.allows_ne_alter {sweeps : Bool} {g : Grip} {x : Atom σ} (h : g.allows sweeps x)
    (f : World σ → World σ) : x ≠ .alter f := by
  rintro rfl
  exact h

/-- A writer that gets hold of a mailbox has just made it, and it is empty. -/
theorem Grip.boxed_of_after {g : Grip} {x : Atom σ} {s : World σ} {b : BoxRef}
    (h : g.after x (x.answer s) = .boxed b) :
    g = .boxed b ∨ (x.effect s).pool.office.mail b = [] := by
  cases x with
  | createMailbox address =>
    cases g with
    | writing =>
      have hmade : ∀ r, (s.pool.office.create address).map (·.1) = r →
          after .writing (.createMailbox address : Atom σ) r = .boxed b →
          b = s.pool.office.boxes.size := by
        rintro r hr hafter
        cases r with
        | error e => cases hafter
        | ok d =>
          cases hafter
          unfold Office.create at hr
          split at hr
          · cases hr
          · cases hr
            rfl
      refine .inr ?_
      rw [hmade _ rfl h, Atom.mail_effect]
      simp [Office.mail, Office.box?]
    | _ => exact .inl h
  | lock op => cases op <;> cases h
  | enroll y => cases h
  | _ => cases g <;> exact .inl h

structure Alert (workers : Nat) (c : Shift σ) : Prop where
  waits : ∀ a, c.site.world.pool.Waits a →
    c.Awake workers ∨ ∃ w, w < workers ∧ (c.places w).Looks a
  boxed : ∀ t b, (c.hand workers t).grip = .boxed b → c.site.world.pool.office.mail b ≠ [] →
    c.Awake workers

namespace Alert

theorem start (config : Config) (env : σ.Env) : Alert workers (Shift.start config env) where
  waits _ h := nomatch h.1
  boxed _ _ h := nomatch h

/-- As long as a writer has the table, nobody comes to look. -/
theorem awake_of_boxed (hs : Steady workers c) (hpos : 0 < workers) (ha : Alert workers c)
    {m : Shift.Move σ} (h : c.step company workers m = some c') {t : Thread} {b : BoxRef}
    (hgrip : (c.hand workers t).grip = .boxed b) (hmail : c.site.world.pool.office.mail b ≠ []) :
    c'.Awake workers := by
  refine ((ha.boxed t b hgrip hmail).step hs hpos h).resolve_right fun henters => ?_
  have hwriter := hs.accounts.writer.some.mpr ⟨t, by rw [hgrip]; rfl⟩
  exact Bool.false_ne_true (henters.1.symm.trans hwriter)

theorem boxed_step (hs : Steady workers c) (hpos : 0 < workers) (ha : Alert workers c)
    {m : Shift.Move σ} (h : c.step company workers m = some c') (t : Thread) (b : BoxRef)
    (hgrip : (c'.hand workers t).grip = .boxed b)
    (hmail : c'.site.world.pool.office.mail b ≠ []) : c'.Awake workers := by
  cases Shift.change h with
  | quiet site hand => exact ha.awake_of_boxed hs hpos h (hand ▸ hgrip) (site ▸ hmail)
  | moved u x _ next _ site hand =>
    have hmay := hs.lawful.may_next next
    rw [hand, Function.update_apply] at hgrip
    rw [site] at hmail
    cases x with
    | signal v op =>
      refine ha.awake_of_boxed hs hpos h (t := t) ?_ hmail
      split at hgrip
      · rename_i htu
        subst htu
        cases op <;> exact hgrip
      · exact hgrip
    | atom x =>
      have hkept : (c.hand workers t).grip = .boxed b := by
        split at hgrip
        · rename_i htu
          subst htu
          exact (Grip.boxed_of_after hgrip).resolve_right hmail
        · exact hgrip
      rcases Atom.mail_of_effect (Grip.allows_ne_alter hmay) hmail with hput | hmail
      · exact .of_put hpos hput hand
      · exact ha.awake_of_boxed hs hpos h hkept hmail

/-- Who saw to an actor that waits still does. -/
theorem waits_kept (hs : Steady workers c) (hpos : 0 < workers) (ha : Alert workers c)
    {m : Shift.Move σ} (h : c.step company workers m = some c')
    (hwaits : c.site.world.pool.Waits a) :
    c'.Awake workers ∨ ∃ w, w < workers ∧ (c'.places w).Looks a := by
  have hlook : ∀ {w t}, w < workers → c'.places w = .ofLook t →
      Act.Meets (fun s => s.pool.Waits a) t (· = true) →
      c'.Awake workers ∨ ∃ w, w < workers ∧ (c'.places w).Looks a := by
    intro w t hw hplace hmeets
    rcases Place.ofLook_of_meets hmeets with hwatches | hlooks
    · exact .inl (.of_watches hw (hplace ▸ hwatches))
    · exact .inr ⟨w, hw, hplace ▸ hlooks⟩
  rcases ha.waits a hwaits with hawake | ⟨w, hw, hlooks⟩
  · rcases hawake.step hs hpos h with hawake | ⟨-, w, hw, hplace⟩
    · exact .inl hawake
    · exact hlook hw hplace Act.search_meets
  · cases hplace : c.places w with
    | look x f =>
      rw [hplace] at hlooks
      cases Shift.turn h w with
      | begins _ _ _ place =>
        cases hplace.symm.trans place
      | goes y g _ _ next _ place' =>
        rw [hplace] at next
        cases next
        exact hlook hw place' (hlooks _ hwaits)
      | stays _ _ place' => exact .inr ⟨w, hw, by rw [place', hplace]; exact hlooks⟩
    | _ =>
      rw [hplace] at hlooks
      exact hlooks.elim

theorem waits_step (hs : Steady workers c) (hpos : 0 < workers) (ha : Alert workers c)
    {m : Shift.Move σ} (h : c.step company workers m = some c') (a : ActorRef)
    (hwaits : c'.site.world.pool.Waits a) :
    c'.Awake workers ∨ ∃ w, w < workers ∧ (c'.places w).Looks a := by
  cases Shift.change h with
  | quiet site _ => exact ha.waits_kept hs hpos h (site ▸ hwaits)
  | moved u x move next _ site hand =>
    have hmay := hs.lawful.may_next next
    rw [site] at hwaits
    cases x with
    | signal v op => exact ha.waits_kept hs hpos h hwaits
    | atom x =>
      rcases Atom.waits_of_effect (Grip.allows_ne_alter hmay) hwaits with
        hwaits | hput | ⟨d, o, rfl⟩ | ⟨y, rfl, hmail⟩
      · exact ha.waits_kept hs hpos h hwaits
      · exact .inl (.of_put hpos hput hand)
      · obtain ⟨w, f, rfl, hplace⟩ := hs.lawful.sweeping_of_finish next
        cases Shift.turn h w with
        | begins _ _ _ place => cases hplace.symm.trans place
        | goes y g _ lt next _ place' =>
          rw [hplace] at next
          cases next
          refine .inl (.of_watches lt ?_)
          rw [place']
          exact Place.watches_ofSweep _
        | stays _ goes => exact absurd move goes
      · exact .inl (ha.awake_of_boxed hs hpos h hmay hmail)

theorem step (hs : Steady workers c) (hpos : 0 < workers) (ha : Alert workers c)
    {m : Shift.Move σ} (h : c.step company workers m = some c') : Alert workers c' where
  waits := ha.waits_step hs hpos h
  boxed := ha.boxed_step hs hpos h

end Alert

theorem alert_play (hc : company.Civil) (hpos : 0 < workers) {config : Config} {env : σ.Env}
    {ms : List (Shift.Move σ)} (h : (Shift.start config env).play company workers ms = some c) :
    Steady workers c ∧ Alert workers c :=
  Moves.play_induction (P := fun c => Steady workers c ∧ Alert workers c)
    (fun _ _ _ hboth hstep => ⟨hboth.1.step hc hstep, hboth.2.step hboth.1 hpos hstep⟩)
    ⟨.start config env, .start config env⟩ h

/-! ## The sleep of the workers -/

/-- What holds between two moves of a shift. -/
structure Vigilant (company : Company σ) (workers : Nat) (c : Shift σ) : Prop where
  /-- Who has workers yet to notify of a letter is on the way to one of them. -/
  bearers : ∀ t, (c.hand workers t).due ≠ [] → ∃ w op, c.next workers t = some (.signal w op)
  /-- If all workers sleep and none was notified, and nobody has yet to notify them of a letter,
  then there is no work. This is so whether or not anybody has begun to stop them. -/
  rest : (∀ w, w < workers → c.places w = .asleep ∧ (c.site.signals w).parked = true) →
    (∀ t, (c.hand workers t).due = []) → c.site.world.pool.hasPendingWork = false
  /-- From the end of a call to stop on, no worker sleeps without having been notified, and each
  begins at most one more sweep. -/
  stops : .stopAll ∈ c.ended → ∀ ms d, c.play company workers ms = some d →
    ∀ w, w < workers → (d.site.signals w).parked = false ∧ ms.countP (·.begins w) ≤ 1

theorem Alert.rest (ha : Alert workers c)
    (hasleep : ∀ w, w < workers → c.places w = .asleep ∧ (c.site.signals w).parked = true)
    (hdue : ∀ t, (c.hand workers t).due = []) : c.site.world.pool.hasPendingWork = false := by
  refine Bool.eq_false_iff.mpr fun hwork => ?_
  obtain ⟨a, hwaits⟩ := Pool.hasPendingWork_iff.mp hwork
  rcases ha.waits a hwaits with (⟨t, ht⟩ | ⟨w, hw, hwatches⟩) | ⟨w, hw, hlooks⟩
  · exact ht (hdue t)
  · obtain ⟨hplace, hparked⟩ := hasleep w hw
    rw [hplace, hparked] at hwatches
    cases hwatches
  · rw [(hasleep w hw).1] at hlooks
    exact hlooks.elim

theorem no_wakeup_gets_lost (hc : company.Civil) (config : Config)
    (hvalid : config.validate = .ok ()) (processors : Nat) {env : σ.Env} {ms : List (Shift.Move σ)}
    (h : (Shift.start config env).play company (config.workerCount processors) ms = some c) :
    Vigilant company (config.workerCount processors) c := by
  have hpos := Config.workerCount_pos hvalid processors
  obtain ⟨hs, ha⟩ := alert_play hc hpos h
  refine ⟨fun t ht => hs.lawful.signal_of_due ht, ha.rest, fun hstop ms d hd w hw => ?_⟩
  obtain ⟨hhalted, hsweeps⟩ := hs.halted_play hc (hs.heeded.ended hstop w hw) hd
  exact ⟨hhalted.2, (Nat.le_add_right ..).trans (hsweeps.trans (Place.sweepsLeft_le _))⟩

namespace Mute

def twoWorkers : Config := { workers := some 2 }

/-- So many motions of a worker, a sweep, and so many after its beginning. -/
def round (w before after : Nat) : List (Shift.Move signature) :=
  List.replicate before (.work w) ++ .sweep w 1 :: List.replicate after (.work w)

/-- Two workers find nothing to do and fall asleep. An actor is registered and gets a letter;
one worker sees to it, the other one looks for more, and both sleep again. -/
def letterForSleepers : List (Shift.Move signature) :=
  round 0 4 10 ++ round 1 4 10 ++
    .call 0 (.serve (.ask (.register ()) fun _ => .done ())) :: List.replicate 12 (.go 0) ++
    .call 0 (.serve (.ask (.post ⟨1⟩ (.ofControl (.setName "x"))) fun _ => .done ())) ::
      List.replicate 9 (.go 0) ++
    round 0 12 20 ++ List.replicate 8 (.work 1)

/-- They are told to stop in their sleep. -/
def stopForSleepers : List (Shift.Move signature) :=
  letterForSleepers ++ .call 0 .stopAll :: List.replicate 9 (.go 0)

end Mute

theorem sleepers_are_vigilant : Mute.company.Civil ∧ Mute.twoWorkers.validate = .ok () ∧
    (∃ c, (Shift.start Mute.twoWorkers ()).play Mute.company 2 Mute.letterForSleepers = some c ∧
      (∀ w, w < 2 → c.places w = .asleep ∧ (c.site.signals w).parked = true) ∧
      c.site.world.pool.table = [0] ∧ Vigilant Mute.company 2 c) ∧
    ∃ c, (Shift.start Mute.twoWorkers ()).play Mute.company 2 Mute.stopForSleepers = some c ∧
      .stopAll ∈ c.ended ∧ Vigilant Mute.company 2 c := by
  have hcivil : Mute.company.Civil := nofun
  have hsleep : ((Shift.start Mute.twoWorkers ()).play Mute.company 2 Mute.letterForSleepers).any
      (fun c => ((List.range 2).all fun w => (c.site.signals w).parked && match c.places w with
        | .asleep => true
        | _ => false) && c.site.world.pool.table = [0]) := by decide +kernel
  have hstop : ((Shift.start Mute.twoWorkers ()).play Mute.company 2 Mute.stopForSleepers).any
      (fun c => c.ended.any fun
        | .stopAll => true
        | .serve _ => false) := by decide +kernel
  obtain ⟨c, hplay, hc⟩ := (Option.any_eq_true _ _).mp hsleep
  obtain ⟨d, hplay', hd⟩ := (Option.any_eq_true _ _).mp hstop
  obtain ⟨hasleep, htable⟩ := Bool.and_eq_true_iff.mp hc
  refine ⟨hcivil, rfl, ⟨c, hplay, fun w hw => ?_, of_decide_eq_true htable, ?_⟩, d, hplay', ?_, ?_⟩
  · obtain ⟨hparked, hplace⟩ :=
      Bool.and_eq_true_iff.mp (List.all_eq_true.mp hasleep w (List.mem_range.mpr hw))
    refine ⟨?_, hparked⟩
    split at hplace
    · assumption
    · cases hplace
  · exact no_wakeup_gets_lost hcivil Mute.twoWorkers rfl 8 hplay
  · obtain ⟨x, hx, hstops⟩ := List.any_eq_true.mp hd
    cases x with
    | stopAll => exact hx
    | serve program => cases hstops
  · exact no_wakeup_gets_lost hcivil Mute.twoWorkers rfl 8 hplay'

end ActorSystem
