import ActorSystem.Duty
import ActorSystem.Proofs.Courier
import ActorSystem.Proofs.Sweep.Still

/-!
# What a sweep gets done

After a sweep of a single worker, by either strategy and whatever the roles do, every actor that was
in the table has had a turn of its own. If it did not stop there it has consumed all that it had
before the sweep and all that it was sent before its turn, in this order, and has left what it was
sent since then.

* `Fresh`: the mailbox of an actor that is registered in the sweep did not exist before.
* `Company.Silent`: the roles send nothing.
* `sweep_consumes`: what a sweep gets done, and when there is nothing left to do.
-/

namespace ActorSystem

variable {σ : Signature} {α : Type} {config : Config} {company : Company σ} {w w' u : World σ}
variable {a : ActorRef} {b : BoxRef} {strategy : SweepStrategy} {s : Stage σ} {x : Atom σ}

/-! ## New actors -/

/-- The new actors of `u` and those in the making have mailboxes that were not yet in `w`. -/
structure Fresh (w u : World σ) (s : Stage σ) : Prop where
  kept : ∀ b, (w.pool.office.box? b).isSome → (u.pool.office.box? b).isSome
  made : ∀ n b, s.desk = .boxed n b → w.pool.office.box? b = none
  homes : ∀ c b, w.pool.actors.size ≤ c → u.pool.boxOf c = some b → w.pool.office.box? b = none

namespace Fresh

theorem refl (hs : s.desk = .away) : Fresh w w s where
  kept b hb := hb
  made n b hb := by
    rw [hs] at hb
    cases hb
  homes c b hc hb := by
    have hborn := Pool.boxOf_isSome_iff.mp (Option.isSome_of_eq_some hb)
    exact absurd hborn (Nat.not_lt_of_le hc)

theorem visited (h : Fresh w u s) (hx : s.Allows config.maxActors x) :
    Fresh w (x.effect u) (s.visit ⟨u, x⟩) where
  kept b hb := Atom.box?_isSome_effect (Orderly.ne_alter hx) (h.kept b hb)
  made n b hb := by
    rcases Desk.boxed_of_after hb with hold | hmade
    · exact h.made n b hold
    · obtain ⟨c, rfl, hok⟩ := hmade
      have hnone := (createMailbox_ok hok).1
      cases hold : w.pool.office.box? b with
      | none => rfl
      | some box =>
        have hkept := h.kept b (Option.isSome_of_eq_some hold)
        rw [hnone] at hkept
        cases hkept
  homes c b hc hb := by
    rcases Housed.boxOf_of_effect (i := 0) (s := only s) hx hb with hold | hnew
    · exact h.homes c b hc hold
    · obtain ⟨-, n, hn, -⟩ := hnew
      exact h.made n b hn

end Fresh

theorem mail_of_fresh (h : w.pool.office.box? b = none) : w.pool.office.mail b = [] := by
  rw [Office.mail, h]
  rfl

/-- Nothing is in the mailbox of a new actor if no letter has been sent. -/
theorem Solo.mailOf_newcomer {t : Act σ α} {Q : α → Stage σ → Prop} (ht : Obeys config s t Q)
    (hw : Solo config w s) (hs : s.desk = .away)
    (hsilent : ∀ v ∈ t.visits w, v.atom.isPut = false) {c : ActorRef}
    (hc : w.pool.actors.size ≤ c) : (t.run w).2.pool.mailOf c = [] := by
  have hall := ht.induction (h := []) (P := fun h u s => Fresh w u s ∧
    ((∀ v ∈ h, v.atom.isPut = false) → ∀ b, w.pool.office.mail b = [] →
      u.pool.office.mail b = [])) ?_ hw ⟨.refl hs, fun _ _ hb => hb⟩
  · obtain ⟨s', -, -, hfresh, hempty⟩ := hall
    cases hb : (t.run w).2.pool.boxOf c with
    | none => exact Pool.mailOf_eq_nil_of_boxOf hb
    | some b =>
      rw [Pool.mailOf_eq_of_boxOf hb]
      exact hempty hsilent b (mail_of_fresh (hfresh.homes c b hc hb))
  intro h u s x _ hx hold
  obtain ⟨hfresh, hempty⟩ := hold
  refine ⟨hfresh.visited hx, fun hnone b hb => ?_⟩
  have hu := hempty (fun v hv => hnone v (List.mem_append_left _ hv)) b hb
  have hput : x.isPut = false := hnone ⟨u, x⟩ (List.mem_append_right _ List.mem_cons_self)
  rw [Atom.mail_effect]
  cases x with
  | alter f => exact absurd rfl (Orderly.ne_alter hx f)
  | put d m => cases hput
  | takeMail d =>
    dsimp only
    rw [hu, List.tail_nil, ite_self]
  | _ => exact hu

/-- Who has stopped does not come back. -/
theorem Solo.sick_run {t : Act σ α} {Q : α → Stage σ → Prop} (ht : Obeys config s t Q)
    (hw : Solo config w s) (ha : w.pool.phaseOf a = some .sick) :
    (t.run w).2.pool.phaseOf a = some .sick := by
  have hall := ht.induction (h := []) (P := fun _ u _ => u.pool.phaseOf a = some .sick)
    (fun h u s x hu hx hsick => hu.taken.sick_visited (i := 0) (s := only s) hx hsick) hw ha
  obtain ⟨-, -, -, hsick⟩ := hall
  exact hsick

/-! ## Silence -/

/-- The request sends no letter: it neither posts one nor unregisters anybody. -/
def Request.silent : Request σ → Bool
  | post .. | unregister _ => false
  | _ => true

structure Company.Silent (company : Company σ) : Prop where
  roles : ∀ role ctx m, (company.behaviour.handle role ctx m).All (·.silent)
  calls : ∀ c, (company.outside c).All (·.isPut = false)

namespace Act

theorem answer_silent (hc : company.Silent) {r : Request σ} (hr : r.silent) :
    (answer company r).All (·.isPut = false) := by
  cases r with
  | post target m | unregister id => cases hr
  | register role =>
    refine (register_registers _ role).mono fun x hx => ?_
    cases x <;> first | rfl | cases hx
  | findByName name => exact ⟨rfl, fun _ => ⟨rfl, fun _ => ⟨rfl, fun _ => trivial⟩⟩⟩
  | log e => exact ⟨rfl, fun _ => trivial⟩
  | call c => exact hc.calls c

theorem turn_silent (hc : company.Silent) (strategy : SweepStrategy) (a : ActorRef) :
    (turn company strategy a).All (·.isPut = false) := by
  have hstep : ∀ op, (stepOf strategy op : Act σ Unit).All (·.isPut = false) := by
    intro op
    cases strategy with
    | deferred => trivial
    | handoff => exact ⟨rfl, fun _ => trivial⟩
  have hdrain : (drain company a).All (·.isPut = false) := by
    refine drain_all (fun role ctx m => ?_) fun x hx => ?_
    · exact interpret_all (fun r hr => answer_silent hc hr) (hc.roles role ctx m)
    · cases x <;> first | rfl | cases hx
  exact processUnlocked_all (P := fun x => x.isPut = false) rfl (fun _ => rfl) hstep hdrain

end Act

theorem Rounds.silent (hc : company.Silent) {turns : List ActorRef} {h : List (Visit σ)}
    (hr : Rounds config company strategy w turns h w') : ∀ v ∈ h, v.atom.isPut = false := by
  induction hr with
  | rest w => exact fun v hv => by cases hv
  | @pass w w' x turns h hx next ih =>
    have hfirst : x.isPut = false := by
      cases x <;> first | rfl | cases hx
    exact List.forall_mem_cons.mpr ⟨hfirst, ih⟩
  | @turn w w' c turns h hw idle next ih =>
    intro v hv
    rcases List.mem_append.mp hv with hv | hv
    · exact Act.visits_of_all (Act.turn_silent hc strategy c) w v hv
    · exact ih v hv

theorem letter_of_silent {h : List (Visit σ)} (hsilent : ∀ v ∈ h, v.atom.isPut = false)
    (b : BoxRef) : h.filterMap (·.letter b) = [] := by
  rw [List.filterMap_eq_nil_iff]
  intro v hv
  have hput := hsilent v hv
  obtain ⟨w, x⟩ := v
  cases x <;> first | rfl | cases hput

/-! ## What a sweep gets done -/

/-- What has become of an actor of the table in a sweep with the accesses `h` from world `w` to
`w'`: it had a turn, in which it stopped, or in which it consumed all the mail that it had by
then. -/
structure Attended (h : List (Visit σ)) (w w' : World σ) (a : ActorRef) (b : BoxRef)
    (before : List (Visit σ)) (u : World σ) (after : List (Visit σ)) : Prop where
  turn : h = before ++ ⟨u, .claim a⟩ :: after
  idle : u.pool.isIdle a
  /-- All that it was sent before its turn has been added to its mail. -/
  received : u.pool.mailOf a = w.pool.mailOf a ++ before.filterMap (·.letter b)
  outcome : (a ∈ w'.pool.table ∧ w'.pool.isSick a = false ∧
      h.filterMap (·.consumed a) = u.pool.mailOf a ∧
      w'.pool.mailOf a = after.filterMap (·.letter b)) ∨
    (w'.pool.isSick a ∧ a ∉ w'.pool.table)

/-- The turn of an actor in a sweep that leaves the pool at rest. -/
theorem Rounds.attended (hc : company.Civil) {turns : List ActorRef} {h : List (Visit σ)} {d : Bool}
    (hr : Rounds config company strategy w turns h w') (hend : Solo config w' (.rest d))
    (hnodup : turns.Nodup) (ha : a ∈ turns) (hb : w.pool.boxOf a = some b) :
    ∃ before u after, Attended h w w' a b before u after := by
  have hborn : a < w.pool.actors.size := Pool.boxOf_isSome_iff.mp (Option.isSome_of_eq_some hb)
  obtain ⟨earlier, later, before, after, u, rfl, rfl, hbefore, hu, hidle, hafter⟩ := hr.split ha
  have hsplit := List.nodup_append'.mp hnodup
  have hearlier : a ∉ earlier := fun hin => hsplit.2.2 hin List.mem_cons_self
  have hlater : a ∉ later := (List.nodup_cons.mp hsplit.2.1).1
  obtain ⟨hbox, hreceived⟩ := hbefore.balance hc hb
  obtain ⟨-, htaken, hconsumed⟩ := hbefore.untouched hc hearlier hborn
  rw [htaken, List.nil_append] at hreceived
  obtain ⟨debt, hsolo⟩ := hu
  obtain ⟨hbox', -⟩ := hsolo.balance (Act.turn_obeys hc strategy rfl rfl rfl a) hbox
  obtain ⟨-, hleft⟩ := hafter.balance hc hbox'
  have hborn' := Pool.boxOf_isSome_iff.mp (Option.isSome_of_eq_some hbox')
  obtain ⟨hphase, htaken', hconsumed'⟩ := hafter.untouched hc hlater hborn'
  rw [htaken', List.nil_append] at hleft
  refine ⟨before, u, (Act.afterClaim company strategy a).visits ((Atom.claim a).effect u) ++ after,
    ?_, hidle, hreceived, ?_⟩
  · rw [Act.turn_visits hidle, List.append_assoc]
    rfl
  by_cases ho : ((Act.turn company strategy a).run u).1 = .poisoned
  · have hsick : w'.pool.phaseOf a = some .sick :=
      hphase.trans (Act.turn_stops hc strategy a ⟨debt, hsolo⟩ ho)
    exact .inr ⟨Pool.isSick_iff.mpr hsick, fun hin => hend.not_sick_of_mem hin hsick⟩
  · obtain ⟨hall, hrest, hidle'⟩ := Act.turn_books hc ⟨debt, hsolo⟩ hidle hbox ho
    have hwell : w'.pool.phaseOf a = some .idle := hphase.trans hidle'
    have hstays : a ∈ w'.pool.table := by
      refine Decidable.byContradiction fun hout => ?_
      have hlast := Pool.phaseOf_isSome_iff.mp (Option.isSome_of_eq_some hwell)
      have hsick := hend.kept.healthy a hlast hout
      rw [hwell] at hsick
      cases hsick
    have hnot : w'.pool.isSick a = false := by
      refine Bool.eq_false_iff.mpr fun hsick => ?_
      rw [Pool.isSick_iff, hwell] at hsick
      cases hsick
    refine .inl ⟨hstays, hnot, ?_, ?_⟩
    · rw [List.filterMap_append, List.filterMap_append, hconsumed, hconsumed', hall,
        List.nil_append, List.append_nil]
    · have hclaim : (⟨u, .claim a⟩ : Visit σ).letter b = none := rfl
      rw [Act.turn_visits hidle] at hrest
      simp only [List.filterMap_cons, hclaim] at hrest
      rw [hleft, hrest, List.filterMap_append]

structure Consumes (company : Company σ) (w : World σ) (h : List (Visit σ)) (w' : World σ) :
    Prop where
  /-- Without work nothing happens at all. -/
  still : w.pool.hasPendingWork = false → w' = w
  attended : ∀ a ∈ w.pool.table, ∃ b before u after, w.pool.boxOf a = some b ∧
    Attended h w w' a b before u after
  /-- If the roles send nothing, one sweep is enough. -/
  settled : company.Silent → w'.pool.hasPendingWork = false

/-- After any routines of a single worker, a sweep that is not cut off before it has visited as many
actors as there are in the table. -/
theorem sweep_consumes (company : Company σ) (hc : company.Civil) (config : Config) (env : σ.Env)
    (rs : List (Routine σ)) (hrs : ∀ r ∈ rs, r.isDrain = false) (w : World σ)
    (hw : ((Routine.all company rs).run (.empty config env)).2 = w) (worker limit : Nat)
    (hlimit : w.pool.table.length ≤ limit) (h : List (Visit σ)) (w' : World σ)
    (hh : (Act.sweepWithin company worker limit).visits w = h)
    (hw' : ((Act.sweepWithin company worker limit).run w).2 = w') : Consumes company w h w' := by
  have hsolo : Solo config w (.rest false) := hw ▸ (Solo.empty config env).all hc hrs
  have hobeys : Obeys config (.rest true) (Act.sweepWithin company worker limit)
      fun _ s => s = .rest true := Act.sweepWithin_obeys hc worker limit
  obtain ⟨s, rfl, hend⟩ := hobeys.run (hsolo.settled true)
  obtain ⟨turns, hrounds, hnodup, hall⟩ := Act.sweepWithin_rounds hc worker hsolo hlimit
  rw [hh, hw'] at hrounds
  rw [hw'] at hend
  have hattended : ∀ a ∈ w.pool.table, ∃ b before u after, w.pool.boxOf a = some b ∧
      Attended h w w' a b before u after := by
    intro a ha
    have hbox := Pool.boxOf_isSome_iff.mpr (hsolo.born_of_mem ha)
    obtain ⟨b, hb⟩ := Option.isSome_iff_exists.mp hbox
    obtain ⟨before, u, after, hattended⟩ := hrounds.attended hc hend hnodup (hall a ha) hb
    exact ⟨b, before, u, after, hb, hattended⟩
  refine ⟨fun hwork => ?_, hattended, fun hsilent => ?_⟩
  · rw [← hw']
    exact Act.sweepWithin_of_no_work worker limit hwork
  · have hnoput := hrounds.silent hsilent
    refine List.any_eq_false.mpr fun c hin => ?_
    suffices hmail : w'.pool.mailOf c = [] by simp [Pool.needsProcessing, hmail]
    by_cases hold : c < w.pool.actors.size
    · have hlisted : c ∈ w.pool.table := by
        refine Decidable.byContradiction fun hout => hend.not_sick_of_mem hin ?_
        rw [← hw']
        exact (hsolo.settled true).sick_run hobeys (hsolo.kept.healthy c hold hout)
      obtain ⟨b, before, u, after, -, hturn⟩ := hattended c hlisted
      rcases hturn.outcome with hstays | hgone
      · rw [hstays.2.2.2]
        refine letter_of_silent (fun v hv => hnoput v ?_) b
        rw [hturn.turn]
        exact List.mem_append_right before (List.mem_cons_of_mem _ hv)
      · exact absurd hin hgone.2
    · rw [← hw']
      rw [← hh] at hnoput
      exact (hsolo.settled true).mailOf_newcomer hobeys rfl hnoput (Nat.le_of_not_lt hold)

theorem errands_get_done :
    (Courier.worldOf { sweep := .handoff }).pool.hasPendingWork ∧
      Consumes Courier.company (Courier.worldOf { sweep := .handoff })
        ((Act.sweepWithin Courier.company 0 3).visits (Courier.worldOf { sweep := .handoff }))
        ((Act.sweepWithin Courier.company 0 3).run (Courier.worldOf { sweep := .handoff })).2 := by
  have hwork : (Courier.worldOf { sweep := .handoff }).pool.hasPendingWork := by decide +kernel
  have hroom : (Courier.worldOf { sweep := .handoff }).pool.table.length ≤ 3 := by decide +kernel
  exact ⟨hwork, sweep_consumes Courier.company nofun { sweep := .handoff } () Courier.errands
    Courier.errands_drain_nothing _ rfl 0 3 hroom _ _ rfl rfl⟩

end ActorSystem
