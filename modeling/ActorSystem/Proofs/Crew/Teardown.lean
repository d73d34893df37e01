import ActorSystem.Proofs.Crew.Addresses
import ActorSystem.Proofs.Crew.Stops
import ActorSystem.Proofs.Office.Dependable

/-!
# Teardown

To unregister an actor is to leave a poison message in its mailbox and to take its address away.
Nothing else happens at that moment: the actor may be in the middle of a batch, with orders to
take another ID ahead of the poison, and other threads may be anywhere. But the mailbox has no
address any more and so gets none again, and what is in the mailbox ahead of the poison is what
the actor still has to do.

In `teardown_is_safe` the call is one operation: other threads may have done anything before it
and do anything after it, but they do not come in between. If they do, the actor may move to
another address when it has got the poison message, and the call has none to take away from it;
`overlapped_call_tears_down` is about the calls during which it stays where it is.

* `Message.due`: what is ahead of the poison.
* `Closing`: the drain that gets there is the last one.
* `Resident.torn_down`: what becomes of an actor that has no address and a poison message to come.
* `Act.visits_unregister`: what a call does.
-/

namespace ActorSystem

variable {σ : Signature} {config : Config} {company : Company σ} {c c₁ c₂ d : Crew σ}
variable {a : ActorRef} {b : BoxRef} {i : ThreadId} {id : ActorId}

/-! ## What is due -/

namespace Message

variable {V : Type} {ms ns : List (Message V)} {m : Message V}

/-- The messages for the role that come before any poison message. -/
def due (ms : List (Message V)) : List (Message V) :=
  (ms.takeWhile (!·.isPoison)).filter (!·.isControl)

theorem due_append_poison (ms ns : List (Message V)) (hm : m.isPoison) :
    due (ms ++ m :: ns) = due ms := by
  rw [due, List.takeWhile_append, List.takeWhile_cons_of_neg (by simpa using hm), List.append_nil]
  split
  · rename_i hall
    rw [due, (List.takeWhile_prefix _).eq_of_length hall]
  · rfl

theorem due_prefix (h : ms <+: ns) : due ms <+: due ns := by
  obtain ⟨rest, rfl⟩ := h
  refine List.IsPrefix.filter _ ?_
  rw [List.takeWhile_append]
  split
  · exact (List.takeWhile_prefix _).trans (List.prefix_append _ _)
  · exact List.prefix_refl _

/-- When nothing comes after a poison message. -/
theorem due_of_final
    (h : ∀ before m after, ms = before ++ m :: after → m.isPoison → after = []) :
    due ms = ms.filter (!·.isControl) := by
  have hsplit := List.takeWhile_append_dropWhile (p := fun m : Message V => !m.isPoison) (l := ms)
  cases hdrop : ms.dropWhile (!·.isPoison) with
  | nil =>
    rw [hdrop, List.append_nil] at hsplit
    rw [due, hsplit]
  | cons m after =>
    have hm : m.isPoison := by
      have hhead := List.head?_dropWhile_not (fun m : Message V => !m.isPoison) ms
      rw [hdrop] at hhead
      simpa using hhead
    rw [hdrop] at hsplit
    have hafter := h _ m after hsplit.symm hm
    have hcontrol := isControl_of_isPoison hm
    rw [due]
    conv_rhs => rw [← hsplit, hafter, List.filter_append]
    simp [hcontrol]

end Message

/-! ## What becomes of an actor -/

theorem Fated.dispatched_eq_due (h : Fated company a c) :
    c.dispatched a = Message.due (c.consumed a) :=
  h.served.trans (Message.due_of_final h.final).symm

/-- What has been consumed was put into the mailbox first. -/
theorem Conserved.consumed_prefix (h : Conserved c) (hb : c.world.pool.boxOf a = some b) :
    c.consumed a <+: (c.letters b).map (·.2) := by
  rw [← h.mail a b hb]
  by_cases hfree : ∀ k, (c.stage k).turn.actor? ≠ some a
  · rw [h.free a hfree]
    exact List.prefix_append _ _
  · obtain ⟨k, hk⟩ := Classical.not_forall.mp hfree
    rw [h.held k a (Decidable.not_not.mp hk), List.append_assoc]
    exact List.prefix_append _ _

theorem Crew.letters_prefix {us : List (ThreadId × Visit σ)} (hp : d.past = c.past ++ us)
    (b : BoxRef) : c.letters b <+: d.letters b := by
  rw [Crew.letters, Crew.letters, hp, List.filterMap_append]
  exact List.prefix_append _ _

theorem Sane.absent_play (hc : company.Civil) (h : Sane config c)
    (ha : a < c.world.pool.actors.size) (hout : a ∉ c.world.pool.table) {ns : List (Move σ)}
    (hplay : c.play company ns = some d) : a ∉ d.world.pool.table := by
  refine (h.induction hc (P := fun d => a < d.world.pool.actors.size ∧ a ∉ d.world.pool.table) ?_
    ⟨ha, hout⟩ hplay).2.2
  rintro d d' - hchange ⟨ha, hout⟩
  rcases hchange.between_or_visited with ⟨i, t, -, -, -, hw, -⟩ | ⟨i, x, hx, -, hw, -⟩
  · rw [hw]
    exact ⟨ha, hout⟩
  · rw [hw, Atom.size_effect, Atom.table_effect]
    cases x with
    | alter f => exact absurd rfl (Orderly.ne_alter hx f)
    | enroll y =>
      refine ⟨Nat.lt_succ_of_lt ha, fun hin => ?_⟩
      rcases List.mem_append.mp hin with hold | hnew
      · exact hout hold
      · exact Nat.ne_of_lt ha (List.mem_singleton.mp hnew)
    | eraseSick => exact ⟨ha, fun hin => hout (List.mem_filter.mp hin).1⟩
    | erase y => exact ⟨ha, fun hin => hout (List.mem_of_mem_erase hin)⟩
    | _ => exact ⟨ha, hout⟩

/-! ### The last drain -/

theorem Fated.not_idle (h : Fated company a c) (hc : Sane config c) {m : Message σ.Value}
    (hm : m ∈ c.consumed a) (hpoison : m.isPoison) : c.world.pool.phaseOf a ≠ some .idle := by
  rcases h.doomed m hm hpoison with hsick | ⟨k, hk⟩
  · rw [hsick]
    nofun
  · rw [hc.taken.phase k a (h.taker k hk).1]
    exact fun hidle => Turn.phase_ne_idle _ (Option.some.inj hidle)

/-- A poison message for `a` has been consumed in this job. -/
def Job.Reaches (j : Job σ) (a : ActorRef) : Prop :=
  ∃ v ∈ j.done, ∃ m, v.consumed a = some m ∧ m.isPoison

/-- The job in which a poison message is consumed is the last one that has to do with the actor. -/
def Closing (a : ActorRef) (c : Crew σ) : Prop :=
  (∃ m ∈ c.consumed a, m.isPoison) →
    ∀ k, (c.stage k).turn.actor? = some a ∨ a ∈ (c.stage k).debt →
      ∃ j, c.jobs k = some j ∧ j.Reaches a

namespace Closing

theorem empty (config : Config) (env : σ.Env) : Closing a (Crew.empty config env : Crew σ) := by
  rintro ⟨m, hm, -⟩
  cases hm

/-- A thread has begun or left its job. -/
theorem settled (h : Closing a c) {t : Stage σ} {o : Option (Job σ)} (ht : t.turn = .away)
    (hd : t.debt = []) (hp : d.past = c.past) (hjobs : d.jobs = assign c.jobs i o)
    (hs : d.stage = assign c.stage i t) : Closing a d := by
  intro hpoison k hk
  rw [Crew.consumed, hp] at hpoison
  rw [hs] at hk
  by_cases hki : k = i
  · rw [hki, assign_self, ht, hd] at hk
    rcases hk with hturn | hdebt
    · cases hturn
    · cases hdebt
  · rw [assign_of_ne _ _ hki] at hk
    rw [hjobs, assign_of_ne _ _ hki]
    exact h hpoison k hk

/-- When a message is consumed, nobody else has the actor or owes it. -/
theorem only_reader (hc : Sane config c) {x : Atom σ}
    (hx : (c.stage i).Allows config.maxActors x) {m : Message σ.Value}
    (hm : (⟨c.world, x⟩ : Visit σ).consumed a = some m) {k : ThreadId}
    (hk : (c.stage k).turn.actor? = some a ∨ a ∈ (c.stage k).debt) : k = i := by
  have hi : (c.stage i).turn.actor? = some a := by
    by_contra hother
    rw [(untouched (w := c.world) hx hother).2] at hm
    cases hm
  rcases hk with hturn | hdebt
  · exact hc.taken.alone k i a hturn hi
  · rw [(untouched_of_sick hc.taken hx (hc.taken.debtor k a hdebt)).2] at hm
    cases hm

/-- Whoever has an actor or owes it after an access did so before, or has just taken it. -/
theorem at_work_before {x : Atom σ} (hx : (c.stage i).Allows config.maxActors x) {k : ThreadId}
    (hk : (assign c.stage i ((c.stage i).visit ⟨c.world, x⟩) k).turn.actor? = some a ∨
      a ∈ (assign c.stage i ((c.stage i).visit ⟨c.world, x⟩) k).debt) :
    ((c.stage k).turn.actor? = some a ∨ a ∈ (c.stage k).debt) ∨
      (k = i ∧ c.world.pool.isIdle a) := by
  rcases hk with hturn | hdebt
  · rcases Taken.before hturn with hthen | ⟨hki, -, hidle⟩
    · exact .inl (.inl hthen)
    · exact .inr ⟨hki, hidle⟩
  · rcases Taken.debt_before hdebt with hthen | ⟨rfl, rfl⟩
    · exact .inl (.inr hthen)
    · exact .inl (.inl (Turn.actor?_of_allows hx.turn))

theorem step (hc : Sane config c) (hf : Fated company a c) {m : Move σ}
    (hstep : c.step company m = some d) (h : Closing a c) : Closing a d := by
  rcases Crew.step_cases hstep with ⟨i, r, -, -, rfl⟩ | ⟨i, j, o, -, -, -, rfl⟩ |
    ⟨i, j, x, next, -, hj, hrest, -, rfl⟩
  · exact h.settled (t := .start r) rfl rfl rfl rfl (Crew.stage_begin company c i r)
  · exact h.settled (t := {}) rfl rfl rfl rfl (Crew.stage_leave c i j o)
  have hx : (c.stage i).Allows config.maxActors x := by
    have hobeys := hc.orderly.obeys i j hj
    rw [hrest] at hobeys
    rw [Crew.stage_of_job hj]
    exact hobeys.1
  rintro ⟨m, hm, hpoison⟩ k hk
  rw [Crew.consumed_snoc (v := ⟨c.world, x⟩) rfl] at hm
  rw [Crew.stage_access hj] at hk
  have hback := at_work_before hx hk
  rcases List.mem_append.mp hm with hold | hnew
  · -- an actor that has got its poison message is not taken again
    have hbefore : (c.stage k).turn.actor? = some a ∨ a ∈ (c.stage k).debt :=
      hback.resolve_right fun hidle => hf.not_idle hc hold hpoison (Pool.isIdle_iff.mp hidle.2)
    obtain ⟨l, hl, v, hv, hreached⟩ := h ⟨m, hold, hpoison⟩ k hbefore
    by_cases hki : k = i
    · subst hki
      cases hj.symm.trans hl
      exact ⟨_, assign_self _ _ _, v, List.mem_append_left _ hv, hreached⟩
    · exact ⟨l, (assign_of_ne _ _ hki).trans hl, v, hv, hreached⟩
  · rw [Option.mem_toList] at hnew
    obtain rfl : k = i := by
      rcases hback with hbefore | ⟨hki, -⟩
      · exact only_reader hc hx hnew hbefore
      · exact hki
    exact ⟨_, assign_self _ _ _, ⟨c.world, x⟩, by simp, m, hnew, hpoison⟩

theorem of_play (hc : company.Civil) {env : σ.Env} {ms : List (Move σ)}
    (hplay : (Crew.empty config env).play company ms = some c) (a : ActorRef) : Closing a c :=
  Moves.play_along (P := Closing a) (fun _ _ _ _ _ hr hstep h =>
    h.step ((Sane.empty config env).play hc hr) (Sane.fated hc hr a) hstep) (.empty config env) hplay

end Closing

/-! ### Torn down -/

/-- Nobody will ever see actor `a` in the pool again. -/
structure Gone (company : Company σ) (c : Crew σ) (a : ActorRef) : Prop where
  sick : c.world.pool.phaseOf a = some .sick
  absent : ∀ ns d, c.play company ns = some d → a ∉ d.world.pool.table
  /-- Whoever is found by name is another actor. -/
  nameless : ∀ ns d, c.play company ns = some d → ∀ name id,
    d.world.pool.findByName name = some id → ∃ other ∈ d.world.pool.table, other ≠ a ∧
      d.world.pool.isSick other = false ∧ d.world.pool.nameOf other = name ∧
        d.world.pool.idOf other = some id
  silent : ∀ ns d, c.play company ns = some d → d.dispatched a = c.dispatched a

/-- What has become of actor `a` with mailbox `b` in crew `c`, after a call that unregistered `id`:
its address had been taken away when `since` accesses had been made, and the messages `ahead` got
into the mailbox before the poison message. -/
structure TornDown (company : Company σ) (c : Crew σ) (id : ActorId) (a : ActorRef) (b : BoxRef)
    (since : Nat) (ahead : List (Message σ.Value)) : Prop where
  detached : ∀ x, (c.world.pool.office.resolve x).1 ≠ some b
  /-- The address is free until another mailbox is placed there. -/
  unknown : (∀ m, ((Act.post id.address m).run c.world).1 = .error (.addressNotFound id.address)) ∨
    ∃ v ∈ c.past.drop since, ∃ d, d ≠ b ∧ v.2.Places id.address d
  /-- Over its whole life the role gets what was ahead of any poison message, in this order. -/
  served : c.dispatched a <+: Message.due ahead
  /-- It gets all of this before the actor stops, unless it gives up. -/
  complete : c.world.pool.phaseOf a = some .sick →
    c.dispatched a = Message.due ahead ∨ c.GaveUp company a
  /-- When a poison message has been consumed, and the sweep in which that happened is over. -/
  gone : (∃ m ∈ c.consumed a, m.isPoison) → (∀ k j, c.jobs k = some j → ¬j.Reaches a) →
    Gone company c a

theorem Sane.gone (hc : company.Civil) {env : σ.Env} {ms : List (Move σ)}
    (hms : ∀ k r, .begin k r ∈ ms → r.isDrain = false)
    (hplay : (Crew.empty config env).play company ms = some c)
    (hpoison : ∃ m ∈ c.consumed a, m.isPoison)
    (hover : ∀ k j, c.jobs k = some j → ¬j.Reaches a) : Gone company c a := by
  obtain ⟨hsane, -, htabled⟩ := Tabled.of_play hc hms hplay
  have hfated := Sane.fated hc hplay a
  have hnobody : ∀ k, ¬((c.stage k).turn.actor? = some a ∨ a ∈ (c.stage k).debt) := by
    intro k hk
    obtain ⟨j, hj, hreaches⟩ := Closing.of_play hc hplay a hpoison k hk
    exact hover k j hj hreaches
  have hsick : c.world.pool.phaseOf a = some .sick := by
    obtain ⟨m, hm, hpoisoned⟩ := hpoison
    rcases hfated.doomed m hm hpoisoned with hsick | ⟨k, hk⟩
    · exact hsick
    · exact absurd (.inl (hfated.taker k hk).1) (hnobody k)
  have hout : a ∉ c.world.pool.table := by
    intro ha
    obtain ⟨k, hk⟩ := htabled.kept.owed a ha hsick
    exact hnobody k (.inr hk)
  have hborn : a < c.world.pool.actors.size := Pool.phaseOf_isSome_iff.mp (by rw [hsick]; rfl)
  have habsent : ∀ ns d, c.play company ns = some d → a ∉ d.world.pool.table :=
    fun ns d hd => hsane.absent_play hc hborn hout hd
  refine ⟨hsick, habsent, fun ns d hd name id hname => ?_, fun ns d hd => ?_⟩
  · obtain ⟨other, hfound, hid⟩ := Option.bind_eq_some_iff.mp hname
    have hin := List.mem_of_find?_eq_some hfound
    have hwell := List.find?_some hfound
    simp only [Bool.and_eq_true, Bool.not_eq_true', beq_iff_eq] at hwell
    refine ⟨other, hin, ?_, hwell.1, hwell.2, hid⟩
    rintro rfl
    exact habsent ns d hd hin
  · have hd' : (Crew.empty config env).play company (ms ++ ns) = some d :=
      Moves.play_trans hplay hd
    rw [(Sane.fated hc hd' a).dispatched_eq_due, hfated.dispatched_eq_due,
      (hsane.consumed_play hc hsick hd).2]

/-- What becomes of the messages of an actor when a poison message has been put into its mailbox
after `ahead`. -/
theorem Fated.due_ahead (hfated : Fated company a d) (hbooks : Conserved d)
    (hb : d.world.pool.boxOf a = some b) {ahead after : List (ThreadId × Message σ.Value)}
    {m : Message σ.Value} (hm : m.isPoison) (hletters : d.letters b = ahead ++ (i, m) :: after) :
    d.dispatched a <+: Message.due (ahead.map (·.2)) ∧
      (d.world.pool.phaseOf a = some .sick →
        d.dispatched a = Message.due (ahead.map (·.2)) ∨ d.GaveUp company a) := by
  have hprefix := hbooks.consumed_prefix hb
  have hdue : Message.due ((d.letters b).map (·.2)) = Message.due (ahead.map (·.2)) := by
    rw [hletters, List.map_append, List.map_cons]
    exact Message.due_append_poison _ _ hm
  rw [hfated.dispatched_eq_due, ← hdue]
  refine ⟨Message.due_prefix hprefix, fun hsick => ?_⟩
  rcases hfated.reason hsick with ⟨before, n, hconsumed, hn⟩ | hgave
  · obtain ⟨rest, hrest⟩ := hprefix
    rw [← hrest, hconsumed, List.append_assoc]
    exact .inl ((Message.due_append_poison before [] hn).trans
      (Message.due_append_poison before rest hn).symm)
  · exact .inr hgave

/-- What can be relied on about actor `a` with mailbox `b` in a crew that began with an empty
pool. -/
structure Resident (config : Config) (company : Company σ) (a : ActorRef) (b : BoxRef)
    (c : Crew σ) : Prop where
  sane : Sane config c
  box : c.world.pool.boxOf a = some b
  listed : c.world.pool.office.Listed
  books : Conserved c
  fated : Fated company a c

namespace Resident

theorem of_play (hc : company.Civil) {env : σ.Env} {ms : List (Move σ)}
    (hplay : (Crew.empty config env).play company ms = some c)
    (hb : c.world.pool.boxOf a = some b) : Resident config company a b c := by
  have hbooks := (Sane.empty config env).induction hc (P := Conserved)
    (fun _ _ hc hchange h => h.step hc hchange) (.empty config env) hplay
  exact ⟨hbooks.1, hb, Sane.listed hc hplay, hbooks.2, Sane.fated hc hplay a⟩

theorem made (h : Resident config company a b c) : (c.world.pool.office.box? b).isSome :=
  h.sane.housed.box a b h.box

/-- Mailbox `b` has no entry in crew `c`, and by the time of `d` a poison message has been put
into it after `ahead`. -/
theorem torn_down (h : Resident config company a b c) (hc : company.Civil) {ns : List (Move σ)}
    (hlater : c.play company ns = some d) (hfree : c.world.pool.office.boxAt id.address = none)
    (hnone : ∀ x, (x, b) ∉ c.world.pool.office.entries)
    {ahead after : List (ThreadId × Message σ.Value)}
    (hletters : d.letters b = ahead ++ (i, .poison) :: after) {env : σ.Env} {ms : List (Move σ)}
    (hplay : (Crew.empty config env).play company ms = some d)
    (hsweeps : ∀ k r, .begin k r ∈ ms → r.isDrain = false) :
    TornDown company d id a b c.past.length (ahead.map (·.2)) := by
  have hthere : Resident config company a b d :=
    .of_play hc hplay (h.sane.boxOf_play hc h.box hlater)
  have hknown : b < c.world.pool.office.boxes.size := by
    by_contra hlt
    have hmade := h.made
    rw [Office.box?_eq_none_of_size_le _ (Nat.le_of_not_lt hlt)] at hmade
    cases hmade
  obtain ⟨hserved, hcomplete⟩ := hthere.fated.due_ahead hthere.books hthere.box rfl hletters
  refine ⟨Office.resolve_ne_of_detached (h.sane.detached_play hc hknown hnone hlater), ?_, hserved,
    hcomplete, Sane.gone hc hsweeps hplay⟩
  obtain ⟨vs, hpast, hfree | hplaced⟩ := h.sane.vacant_play hc hfree hknown hnone hlater
  · refine .inl fun m => ?_
    rw [Act.run_post, Office.resolve, hfree]
  · rw [hpast, List.drop_left]
    exact .inr hplaced

end Resident

/-! ## A call -/

namespace Act

variable {w : World σ} {x : Address}

theorem visits_post_of_found (h : w.pool.office.find? x = some b) (m : Message σ.Value) :
    (post x m).visits w = [⟨w, .resolve x⟩, ⟨w, .put b m⟩] := by
  have hanswer : ((atom (.resolve x)).run w).1 = some b :=
    congrArg Prod.fst (Office.resolve_of_find? h)
  have heffect : ((atom (.resolve x)).run w).2 = w := by
    show (w.modifyOffice fun _ => (w.pool.office.resolve x).2) = w
    rw [Office.resolve_of_find? h]
    rfl
  rw [post, visits_bind, hanswer, heffect]
  rfl

theorem visits_revoke_of_found (h : w.pool.office.boxAt x = some b) :
    (revoke x).visits w =
      [⟨w, .revoke .caller x⟩, ⟨w.modifyOffice (·.eraseEntry x), .report (.addressRevoked x)⟩] := by
  have hanswer : ((atom (.revoke .caller x)).run w).1 = true := congrArg Option.isSome h
  refine (visits_bind (atom (.revoke .caller x)) _ w).trans ?_
  rw [hanswer]
  rfl

/-- What a call does that nobody interrupts. -/
theorem visits_unregister (h : w.pool.office.find? id.address = some b) :
    (unregister id).visits w =
      let sent := w.modifyOffice (·.put b .poison)
      let revoked := sent.modifyOffice (·.eraseEntry id.address)
      [⟨w, .resolve id.address⟩, ⟨w, .put b .poison⟩, ⟨sent, .revoke .caller id.address⟩,
        ⟨revoked, .report (.addressRevoked id.address)⟩,
        ⟨revoked.report (.addressRevoked id.address), .report (.unregisterRequested id)⟩] := by
  have hat : (w.modifyOffice (·.put b .poison)).pool.office.boxAt id.address = some b :=
    (Option.filter_eq_some_iff.mp h).1
  rw [unregister, visits_bind, visits_post_of_found h, run_post_of_found w h]
  dsimp only
  rw [visits_bind, visits_revoke_of_found hat, run_revoke, hat]
  rfl

end Act

/-- Thread `i` unregisters `id`, and the mailbox of `a` is registered at this address. The call is
one operation; whatever any number of threads have done before it and will do after it, it tears
`a` down. -/
theorem teardown_is_safe (company : Company σ) (hc : company.Civil) (config : Config) (env : σ.Env)
    (ms : List (Move σ)) (c : Crew σ) (hplay : (Crew.empty config env).play company ms = some c)
    (i : ThreadId) (j : Job σ) (hjob : c.jobs i = some j) (id : ActorId)
    (rest : Except Error Unit → Act σ (Option Outcome))
    (hcall : j.rest = Act.unregister id >>= rest) (a : ActorRef) (b : BoxRef)
    (hb : c.world.pool.boxOf a = some b) (hat : c.world.pool.office.boxAt id.address = some b) :
    ∃ d, c.play company (List.replicate ((Act.unregister id).visits c.world).length (.go i)) =
        some d ∧
      (d.jobs i).map (·.rest) = some (rest (.ok ())) ∧
      d.letters b = c.letters b ++ [(i, .poison)] ∧
      ∀ later e, d.play company later = some e →
        (∀ k r, .begin k r ∈ ms ++ later → r.isDrain = false) →
        TornDown company e id a b d.past.length ((c.letters b).map (·.2)) := by
  have hresident : Resident config company a b c := .of_play hc hplay hb
  have hfound : c.world.pool.office.find? id.address = some b :=
    Option.filter_eq_some_iff.mpr ⟨hat, hresident.listed.owned b hresident.made⟩
  have hrun := Act.run_unregister_of_found c.world hfound
  have hvisits := Act.visits_unregister hfound
  let d := c.carry i j (Act.unregister id) rest
  have hcalled : c.play company
      (List.replicate ((Act.unregister id).visits c.world).length (.go i)) = some d := by
    rw [Crew.play_undisturbed hjob hcall, hvisits]
    rfl
  have hletters : d.letters b = c.letters b ++ [(i, .poison)] := by
    simp [d, Crew.carry, Crew.letters, hvisits, Visit.letter, hresident.made]
  have hworld : d.world = ((Act.unregister id).run c.world).2 := rfl
  have hoffice : d.world.pool.office =
      (c.world.pool.office.put b .poison).eraseEntry id.address := by
    rw [hworld, hrun]
    rfl
  refine ⟨d, hcalled, ?_, hletters, fun later e he hsweeps => ?_⟩
  · simp [d, Crew.carry, hrun]
  have hthere : Resident config company a b d :=
    .of_play hc (Moves.play_trans hplay hcalled) (hresident.sane.boxOf_play hc hb hcalled)
  obtain ⟨us, hpast⟩ := Crew.past_play he
  obtain ⟨after, hafter⟩ := Crew.letters_prefix hpast b
  rw [hletters, List.append_assoc] at hafter
  refine hthere.torn_down hc he ?_ ?_ hafter.symm
    (Moves.play_trans hplay (Moves.play_trans hcalled he)) fun k r hr => hsweeps k r ?_
  · rw [hoffice, Office.boxAt_eraseEntry, if_pos rfl]
  · rw [hoffice]
    exact hresident.listed.revoked hat
  · simpa using hr

/-- A mute is registered and gets a letter that tells it to take another ID; then a thread begins
to unregister it. -/
def Mute.departure : List (Move Mute.signature) :=
  [.begin 0 Mute.register] ++ List.replicate 12 (.go 0) ++
    [.begin 1 (Mute.post ⟨1⟩ (.setId ⟨5⟩))] ++ List.replicate 3 (.go 1) ++
    [.begin 0 (Mute.unregister ⟨1⟩)]

theorem departure_is_safe : ∃ c d, (Crew.empty {} ()).play Mute.company Mute.departure = some c ∧
    c.play Mute.company (List.replicate ((Act.unregister ⟨1⟩).visits c.world).length (.go 0)) =
      some d ∧
    d.letters 0 = c.letters 0 ++ [(0, .poison)] ∧
    ∀ later e, d.play Mute.company later = some e →
      (∀ k r, .begin k r ∈ Mute.departure ++ later → r.isDrain = false) →
      TornDown Mute.company e ⟨1⟩ 0 0 d.past.length ((c.letters 0).map (·.2)) := by
  have hrun : ((Crew.empty {} ()).play Mute.company Mute.departure).map (fun c =>
      (c.world.pool.boxOf 0, c.world.pool.office.boxAt ⟨1⟩)) = some (some 0, some 0) := by
    decide +kernel
  obtain ⟨c, hplay, hc⟩ := Option.map_eq_some_iff.mp hrun
  simp only [Prod.mk.injEq] at hc
  obtain ⟨hbox, hat⟩ := hc
  have hjob : c.jobs 0 = some (Job.start Mute.company (Mute.unregister ⟨1⟩)) :=
    Crew.jobs_of_begin hplay
  have hcall : (Job.start Mute.company (Mute.unregister ⟨1⟩)).rest =
      Act.unregister ⟨1⟩ >>= fun _ => pure none := Dialogue.bind_assoc _ _ _
  obtain ⟨d, hd, -, hletters, hlater⟩ := teardown_is_safe Mute.company nofun {} () Mute.departure c
    hplay 0 _ hjob ⟨1⟩ _ hcall 0 0 hbox hat
  exact ⟨c, d, hplay, hd, hletters, hlater⟩

/-! ## A call with others in between -/

/-- Whenever the call is at the post office, mailbox `b` is registered at `x`. -/
def StaysAt (x : Address) (b : BoxRef) (vs : List (Visit σ)) : Prop :=
  ∀ v ∈ vs, (∀ n, v.atom ≠ .report n) → v.world.pool.office.boxAt x = some b

theorem Act.called_unregister {vs : List (Visit σ)} {r : Except Error Unit}
    (hcame : (unregister id).Came vs r) (hstays : StaysAt id.address b vs)
    (howned : ∀ v ∈ vs, v.world.pool.office.isOwned b) :
    r = .ok () ∧ (∃ w, (⟨w, .put b .poison⟩ : Visit σ) ∈ vs) ∧
      ∃ w, (⟨w, .revoke .caller id.address⟩ : Visit σ) ∈ vs := by
  obtain ⟨w₁, rest, rfl, hcame⟩ := hcame
  have hfound : (Atom.resolve id.address).answer w₁ = some b := by
    have hat := hstays ⟨w₁, .resolve id.address⟩ List.mem_cons_self nofun
    have hown := howned ⟨w₁, .resolve id.address⟩ List.mem_cons_self
    exact congrArg Prod.fst (Office.resolve_of_find? (Option.filter_eq_some_iff.mpr ⟨hat, hown⟩))
  rw [hfound] at hcame
  obtain ⟨w₂, rest, rfl, w₃, rest, rfl, hcame⟩ := hcame
  have htaken : (Atom.revoke .caller id.address).answer w₃ = true :=
    congrArg Option.isSome (hstays ⟨w₃, .revoke .caller id.address⟩ (by simp) nofun)
  rw [htaken] at hcame
  obtain ⟨w₄, rest, rfl, w₅, rest, rfl, rfl, rfl⟩ := hcame
  exact ⟨rfl, ⟨w₂, by simp⟩, w₃, by simp⟩

namespace Crew.Passes

/-- The letter that a thread has put into a mailbox on the way. -/
theorem letters {m : Message σ.Value} {w : World σ}
    (h : Passes company c d i ⟨w, .put b m⟩ c₁ c₂) (hb : (w.pool.office.box? b).isSome) :
    ∃ after, d.letters b = c₁.letters b ++ (i, m) :: after := by
  have hput : c₂.letters b = c₁.letters b ++ [(i, m)] := by
    simp [Crew.letters, h.past, Visit.letter, hb]
  obtain ⟨ns, hplay⟩ := h.onward
  obtain ⟨us, hpast⟩ := Crew.past_play hplay
  obtain ⟨after, hafter⟩ := Crew.letters_prefix hpast b
  rw [hput, List.append_assoc] at hafter
  exact ⟨after, hafter.symm⟩

theorem getElem?_past {v : Visit σ} (h : Passes company c d i v c₁ c₂) :
    d.past[c₁.past.length]? = some (i, v) := by
  obtain ⟨ns, hplay⟩ := h.onward
  obtain ⟨us, hpast⟩ := Crew.past_play hplay
  rw [hpast, h.past, List.append_assoc]
  simp

end Crew.Passes

/-- Thread `i` has unregistered `id`, while others did what they liked, except that they left the
mailbox of `a` where it was. -/
theorem overlapped_call_tears_down (hc : company.Civil) {env : σ.Env} {ms call : List (Move σ)}
    (hplay : (Crew.empty config env).play company ms = some c)
    (hcall : c.play company call = some d) {vs : List (Visit σ)} {r : Except Error Unit}
    (htrail : d.trail i = c.trail i ++ vs) (hcame : (Act.unregister id).Came vs r)
    (hb : c.world.pool.boxOf a = some b) (hstays : StaysAt id.address b vs) :
    r = .ok () ∧ ∃ ahead after n w, d.letters b = ahead ++ (i, .poison) :: after ∧
      c.letters b <+: ahead ∧ c.past.length ≤ n ∧
      d.past[n]? = some (i, ⟨w, .revoke .caller id.address⟩) ∧
      ∀ later e, d.play company later = some e →
        (∀ k r, .begin k r ∈ ms ++ call ++ later → r.isDrain = false) →
        TornDown company e id a b (n + 1) (ahead.map (·.2)) := by
  have hresident : ∀ ns e, c.play company ns = some e → Resident config company a b e := by
    intro ns e he
    have hsane : Sane config c := (Sane.empty config env).play hc hplay
    exact .of_play hc (Moves.play_trans hplay he) (hsane.boxOf_play hc hb he)
  have howned : ∀ v ∈ vs, v.world.pool.office.isOwned b := by
    intro v hv
    obtain ⟨c₁, c₂, hpass⟩ := Crew.passes_of_trail hcall htrail hv
    obtain ⟨ns, h₁⟩ := hpass.before
    have hthere := hresident ns c₁ h₁
    rw [← hpass.world]
    exact hthere.listed.owned b hthere.made
  obtain ⟨hr, ⟨wp, hput⟩, wr, hrevoke⟩ := Act.called_unregister hcame hstays howned
  -- the poison message arrives
  obtain ⟨p₁, p₂, hposted⟩ := Crew.passes_of_trail hcall htrail hput
  obtain ⟨np, hp₁⟩ := hposted.before
  obtain ⟨us, hus⟩ := Crew.past_play hp₁
  obtain ⟨after, hafter⟩ : ∃ after, d.letters b = p₁.letters b ++ (i, .poison) :: after := by
    have hmade := (hresident np p₁ hp₁).made
    rw [hposted.world] at hmade
    exact hposted.letters hmade
  -- the address is taken away
  obtain ⟨r₁, r₂, hrevoked⟩ := Crew.passes_of_trail hcall htrail hrevoke
  obtain ⟨n₁, hr₁⟩ := hrevoked.before
  obtain ⟨n₂, hr₂⟩ := hrevoked.reached
  obtain ⟨n₃, hr₃⟩ := hrevoked.onward
  obtain ⟨us', hus'⟩ := Crew.past_play hr₁
  have hat : r₁.world.pool.office.boxAt id.address = some b := by
    rw [hrevoked.world]
    exact hstays _ hrevoke nofun
  have hoffice : r₂.world.pool.office = r₁.world.pool.office.eraseEntry id.address := by
    rw [hrevoked.effect, hrevoked.world]
    rfl
  have hsince : r₂.past.length = r₁.past.length + 1 := by
    rw [hrevoked.past, List.length_append, List.length_singleton]
  refine ⟨hr, p₁.letters b, after, r₁.past.length, wr, hafter, Crew.letters_prefix hus b, ?_,
    hrevoked.getElem?_past, fun later e he hsweeps => ?_⟩
  · rw [hus', List.length_append]
    exact Nat.le_add_right _ _
  obtain ⟨vs', hlater⟩ := Crew.past_play he
  obtain ⟨more, hmore⟩ := Crew.letters_prefix hlater b
  rw [hafter, List.append_assoc] at hmore
  rw [← hsince]
  refine (hresident n₂ r₂ hr₂).torn_down hc (Moves.play_trans hr₃ he) ?_ ?_ hmore.symm
    (Moves.play_trans (Moves.play_trans hplay hcall) he) hsweeps
  · rw [hoffice, Office.boxAt_eraseEntry, if_pos rfl]
  · rw [hoffice]
    exact (hresident n₁ r₁ hr₁).listed.revoked hat

/-- The mailbox leaves the address between the poison message and the revocation: nobody is there
any more whose address could be taken away, and the mute can still be reached at its new one. -/
example :
    ((Crew.empty {} ()).play Mute.company (Mute.departure ++ List.replicate 2 (.go 0) ++
      [.begin 1 (.sweep 0 0)] ++ List.replicate 12 (.go 1) ++ List.replicate 3 (.go 0))).map
        (fun c => ((c.world.pool.office.resolve ⟨5⟩).1, c.world.log.back?)) =
      some (some 0, some (.unregisterRequested ⟨1⟩)) := by
  decide +kernel

end ActorSystem
