import ActorSystem.Proofs.Act.Makeup
import ActorSystem.Proofs.Identity.Postal
import ActorSystem.Proofs.Reach.Routines

/-!
# The three records of an identity agree

Whoever looks at a pool while no actor is being made, renumbered or stopped, finds that a healthy
actor's ID, the address of its mailbox and its entry in the registry, if it has one, are the same
number; and that an actor that has stopped has no ID and no entry, and never gets one again.

* `Observed`: this, at every such moment of a run, and from each moment to all later ones.
* `papers_upkeep`: every routine keeps it.
* `identities_agree`: it holds of every run.
-/

namespace ActorSystem

variable {σ : Signature} {α : Type}

/-! ## Moments of a run -/

/-- An access that nobody makes halfway through making, renumbering or stopping an actor. -/
def Atom.rests : Atom σ → Bool
  | look | report _ | outside _ | alter _ | createMailbox _ => false
  | rekey .. | setAddress .. | setId .. | reserve _ => false
  | sicken _ | dropId _ | revoke .. | enroll _ => false
  | _ => true

/-- The pool as each resting access of a run met it, and as it is in the end. -/
def glimpses (h : List (Visit σ)) (w : World σ) : List (Pool σ) :=
  (h.filter (·.atom.rests)).map (·.world.pool) ++ [w.pool]

/-! ## Agreement -/

structure Pool.Agrees (p : Pool σ) : Prop where
  healthy : ∀ a b, p.boxOf a = some b → p.isSick a = false →
    ∃ id, p.idOf a = some id ∧ p.addressOf a = id.address ∧
      ∀ c, (c, b) ∈ p.office.entries → c = id.address
  stopped : ∀ a b, p.boxOf a = some b → p.isSick a →
    p.idOf a = none ∧ ∀ c, (c, b) ∉ p.office.entries

theorem Pool.InOrder.agrees {who : Option ActorRef} {p : Pool σ} (h : InOrder who p) :
    p.Agrees where
  healthy a b hb hwell := by
    obtain ⟨id, hid⟩ := h.exists_id hb hwell
    have haddress := h.named a b id hb hid
    refine ⟨id, hid, ?_, fun c hc => ?_⟩
    · rw [addressOf_eq, hb]
      exact haddress
    · rw [← haddress, h.office.addressOf hc]
  stopped a b hb hsick := by
    have hid := (h.stopped a (by rw [hb]; rfl)).mpr hsick
    exact ⟨hid, fun c => h.detached a b c hb hid⟩

/-- At all moments of the run the records agree, and an actor that has stopped at one of them has
no ID at any later one. -/
structure Observed (h : List (Visit σ)) (w : World σ) : Prop where
  agree : ∀ p ∈ glimpses h w, p.Agrees
  settled : (glimpses h w).Pairwise fun p q => ∀ a, p.isSick a → q.isSick a ∧ q.idOf a = none

namespace Observed

variable {h vs : List (Visit σ)} {w w' : World σ}

theorem start (hw : w.pool.Agrees) : Observed [] w where
  agree p hp := by
    obtain rfl := List.mem_singleton.mp hp
    exact hw
  settled := List.pairwise_singleton _ _

theorem idOf_eq_none {p : Pool σ} (hp : p.Agrees) {a : ActorRef} (ha : p.isSick a) :
    p.idOf a = none := by
  have hphase := Pool.phaseOf_isSome_iff.mp (by rw [Pool.isSick_iff.mp ha]; rfl)
  obtain ⟨b, hb⟩ := Option.isSome_iff_exists.mp (Pool.boxOf_isSome_iff.mpr hphase)
  exact (hp.stopped a b hb ha).1

/-- Further accesses that rest only where they begin. -/
theorem append (ho : Observed h w) (hw : w'.pool.Agrees)
    (hsick : ∀ a, w.pool.isSick a → w'.pool.isSick a)
    (hvs : ∀ v ∈ vs, v.atom.rests → v.world.pool = w.pool) : Observed (h ++ vs) w' := by
  let before := (h.filter (·.atom.rests)).map (·.world.pool)
  let between := (vs.filter (·.atom.rests)).map (·.world.pool)
  have hlist : glimpses (h ++ vs) w' = (before ++ between) ++ [w'.pool] := by
    simp [glimpses, before, between]
  have hbetween : ∀ p ∈ between, p = w.pool := by
    intro p hp
    obtain ⟨v, hv, rfl⟩ := List.mem_map.mp hp
    obtain ⟨hv, hrests⟩ := List.mem_filter.mp hv
    exact hvs v hv hrests
  have hnow : w.pool.Agrees := ho.agree _ (List.mem_append_right _ (List.mem_singleton_self _))
  have hpast := List.pairwise_append.mp ho.settled
  -- who has stopped by now has no ID, now and in the end
  have hstays : ∀ a, w.pool.isSick a → w.pool.isSick a ∧ w.pool.idOf a = none :=
    fun a ha => ⟨ha, idOf_eq_none hnow ha⟩
  have hends : ∀ a, w.pool.isSick a → w'.pool.isSick a ∧ w'.pool.idOf a = none :=
    fun a ha => ⟨hsick a ha, idOf_eq_none hw (hsick a ha)⟩
  constructor
  · intro p hp
    rw [hlist] at hp
    rcases List.mem_append.mp hp with hp | hp
    · rcases List.mem_append.mp hp with hp | hp
      · exact ho.agree p (List.mem_append_left _ hp)
      · rw [hbetween p hp]
        exact hnow
    · obtain rfl := List.mem_singleton.mp hp
      exact hw
  · rw [hlist]
    refine List.pairwise_append.mpr ⟨List.pairwise_append.mpr ⟨hpast.1, ?_, ?_⟩,
      List.pairwise_singleton _ _, ?_⟩
    · refine List.pairwise_of_forall_mem_list fun p hp q hq => ?_
      rw [hbetween p hp, hbetween q hq]
      exact hstays
    · intro p hp q hq
      rw [hbetween q hq]
      exact hpast.2.2 p hp _ (List.mem_singleton_self _)
    · intro p hp q hq a ha
      obtain rfl := List.mem_singleton.mp hq
      rcases List.mem_append.mp hp with hp | hp
      · exact hends a (hpast.2.2 p hp _ (List.mem_singleton_self _) a ha).1
      · rw [hbetween p hp] at ha
        exact hends a ha

end Observed

/-! ## What keeps it -/

/-- The papers are in order, and have been at every moment so far. -/
def Papers (who : Option ActorRef) : Fact σ := fun h w => w.pool.InOrder who ∧ Observed h w

namespace Act

variable {who who' : Option ActorRef}

theorem Papers.start (config : Config) (env : σ.Env) : Papers none [] (.empty config env) :=
  ⟨.empty config, .start (Pool.InOrder.empty config).agrees⟩

theorem papers_append {h vs : List (Visit σ)} {w w' : World σ} (hp : Papers who h w)
    (hw : w'.pool.InOrder who') (hsick : ∀ a, w.pool.isSick a → w'.pool.isSick a)
    (hvs : ∀ v ∈ vs, v.atom.rests → v.world.pool = w.pool) : Papers who' (h ++ vs) w' :=
  ⟨hw, hp.2.append hw.agrees hsick hvs⟩

/-- An act that rests only where it begins. -/
theorem papers_of_restless {t : Act σ α} (ht : t.All fun x => x.rests = false)
    (hpool : ∀ w, w.pool.InOrder who → (t.run w).2.pool.InOrder who' ∧
      ∀ a, w.pool.isSick a → (t.run w).2.pool.isSick a) :
    Leads (Papers who) t fun _ => Papers who' := by
  intro h w hp
  obtain ⟨hw, hsick⟩ := hpool w hp.1
  refine papers_append hp hw hsick fun v hv hrests => ?_
  rw [visits_of_all ht w v hv] at hrests
  cases hrests

theorem papers_atom {x : Atom σ} (hx : x.quiet) :
    Leads (Papers who) (atom x) fun _ => Papers who := by
  intro h w hp
  refine papers_append hp (hp.1.quiet hx) (fun a ha => ?_) fun v hv _ => ?_
  · rw [run_atom, Atom.isSick_quiet hx]
    exact ha
  · obtain rfl := List.mem_singleton.mp hv
    rfl

/-! ### Outsiders -/

theorem readdress_restless (b : BoxRef) (c : Address) :
    (readdress (σ := σ) b c).All fun x => x.rests = false :=
  all_readdress (P := fun x => x.rests = false) rfl (fun _ => rfl) (fun _ => rfl) rfl

theorem asOwner_restless (b : BoxRef) {t : Act σ α} (ht : t.All fun x => x.rests = false) :
    (asOwner b t).All fun x => x.rests = false :=
  all_asOwner (P := fun x => x.rests = false) rfl b ht

theorem poll_restless (b : BoxRef) : (poll (σ := σ) b).All fun x => x.rests = false :=
  all_poll (P := fun x => x.rests = false) rfl (fun _ => rfl) b

theorem papers_of_tactful {t : Act σ α} (ht : t.All fun x => x.rests = false) (htact : Tactful t) :
    Leads (Papers who) t fun _ => Papers who := by
  refine papers_of_restless ht fun w hw => ?_
  obtain ⟨hafter, hsick⟩ := htact who w hw
  exact ⟨hafter, fun a ha => by rwa [hsick]⟩

theorem papers_of_postal {t : Act σ α} (ht : Postal t) :
    Leads (Papers who) t fun _ => Papers who := by
  induction ht with
  | pure a => exact Leads.pure fun _ _ hp => hp
  | bind _ _ ih ih' => exact ih.bind ih'
  | atom hx => exact papers_atom hx
  | createMailbox c =>
    exact papers_of_tactful (all_createMailbox (fun _ => rfl) rfl) (tactful_createMailbox c)
  | revoke c => exact papers_of_tactful (all_revokeFor (fun _ => rfl) rfl) (tactful_revoke c)
  | poll b => exact papers_of_tactful (asOwner_restless b (poll_restless b)) (tactful_poll b)
  | discard b =>
    have hrest : (discard (σ := σ) b).All fun x => x.rests = false := ⟨rfl, fun _ => trivial⟩
    exact papers_of_tactful (asOwner_restless b hrest) (tactful_discard b)
  | readdress b c =>
    exact papers_of_tactful (asOwner_restless b (readdress_restless b c)) (tactful_readdress b c)

/-! ### A new actor -/

/-- The papers are in order, and mailbox `b` waits for an actor with this ID. -/
def Awaited (who : Option ActorRef) (id : ActorId) (b : BoxRef) : Fact σ := fun h w =>
  Papers who h w ∧ w.pool.isSpare b ∧ w.pool.office.addressOf b = id.address

theorem papers_create (id : ActorId) :
    Leads (Papers (σ := σ) who) (createMailbox id.address) fun r => match r with
      | .ok b => Awaited who id b
      | .error _ => Papers who := by
  intro h w hp
  have hpapers := papers_of_tactful (all_createMailbox (fun _ => rfl) rfl)
    (tactful_createMailbox id.address) h w hp
  rw [run_createMailbox] at hpapers ⊢
  cases hc : w.pool.office.create id.address with
  | error e =>
    rw [hc] at hpapers
    exact hpapers
  | ok made =>
    rw [hc] at hpapers
    exact ⟨hpapers, (hp.1.create hc).2⟩

theorem papers_enlist {id : ActorId} (size : Nat) {x : Actor σ} (hid : x.id = some id)
    (hidle : x.phase = .idle) :
    Leads (Awaited who id x.box) (enlist id size x) fun _ => Papers who := by
  rintro h w ⟨hp, hb, haddress⟩
  let ready := (Atom.report (.registered id x.name size)).effect ((Atom.reserve id).effect w)
  have hready : ready.pool.InOrder who := (hp.1.quiet (x := .reserve id) rfl).quiet rfl
  have hspare : ready.pool.isSpare x.box := hb
  have hrun : ((enlist id size x).run w).2 = (Atom.enroll x).effect ready := rfl
  have hafter := hready.enroll hid hidle hspare haddress
  rw [← hrun] at hafter
  refine papers_append hp hafter (fun a ha => ?_) fun v hv hrests => ?_
  · rw [Pool.isSick_iff] at ha
    have hold := Pool.phaseOf_isSome_iff.mp (by rw [ha]; rfl)
    rw [hrun, Pool.isSick_iff, Atom.phaseOf_effect]
    exact (if_neg (Nat.ne_of_lt hold)).trans ha
  · have hall : (enlist id size x).All fun x => x.rests = false :=
      ⟨rfl, fun _ => ⟨rfl, fun _ => ⟨rfl, fun _ => trivial⟩⟩⟩
    rw [visits_of_all hall w v hv] at hrests
    cases hrests

/-! ### A drain -/

theorem papers_claim (a : ActorRef) :
    Leads (Papers (σ := σ) none) (tryBegin a) fun taken =>
      Papers (if taken then some a else none) := by
  intro h w hp
  have hclaimed := papers_atom (x := .claim a) rfl h w hp
  change Papers (if w.pool.isIdle a then some a else none) _ _
  cases hidle : w.pool.isIdle a with
  | false => exact hclaimed
  | true =>
    refine ⟨{ hclaimed.1 with awake := ?_ }, hclaimed.2⟩
    rintro c ⟨⟩
    have hphase := Pool.isIdle_iff.mp hidle
    obtain ⟨b, hb⟩ := Option.isSome_iff_exists.mp
      (Pool.boxOf_isSome_iff.mpr (Pool.phaseOf_isSome_iff.mp (by rw [hphase]; rfl)))
    have hwell : w.pool.isSick a = false := by
      rw [Bool.eq_false_iff, ne_eq, Pool.isSick_iff, hphase]
      simp
    obtain ⟨id, hid⟩ := hp.1.exists_id hb hwell
    change (((Atom.claim a).effect w).pool.idOf a).isSome
    rw [Atom.idOf_effect]
    exact Option.isSome_of_eq_some hid

theorem papers_finish (a : ActorRef) (o : Outcome) :
    Leads (Papers (σ := σ) (heldAfter a o)) (finish a o) fun _ => Papers none := by
  intro h w hp
  have hsick : ∀ c, ((Atom.finish a o).effect w).pool.isSick c = w.pool.isSick c := by
    intro c
    rw [Bool.eq_iff_iff, Pool.isSick_iff, Pool.isSick_iff, Atom.phaseOf_effect]
    dsimp only
    split
    · rename_i hc
      obtain ⟨rfl, ho⟩ := hc
      -- the actor that is let go was not sick before
      have hheld : heldAfter a o = some a := if_neg ho
      have hp' : w.pool.InOrder (some a) := hheld ▸ hp.1
      obtain ⟨b, hb⟩ := hp'.registered
      have hnot := mt (hp'.stopped a (by rw [hb]; rfl)).mpr
        (Option.isSome_iff_ne_none.mp (hp'.awake a rfl))
      rw [Pool.isSick_iff] at hnot
      refine iff_of_false ?_ hnot
      cases w.pool.phaseOf a <;> simp
    · rfl
  have hoffice : ((Atom.finish a o).effect w).pool.office = w.pool.office := by
    simp only [Atom.effect]
    split <;> rfl
  have hafter : ((Atom.finish a o).effect w).pool.InOrder none := by
    refine hp.1.forget.edit (by rw [hoffice]; exact .refl _)
      (fun c => Atom.boxOf_effect (.finish a o) w c) (fun c => Atom.idOf_effect (.finish a o) w c)
      hsick fun c b _ => by rw [hoffice]; exact ⟨rfl, rfl⟩
  refine papers_append hp hafter (fun c hc => (hsick c).trans hc) fun v hv _ => ?_
  obtain rfl := List.mem_singleton.mp hv
  rfl

theorem papers_changeId (a : ActorRef) (id : ActorId) :
    Leads (Papers (σ := σ) (some a)) (changeId a id) fun _ => Papers (some a) := by
  have hrest : (changeId (σ := σ) a id).All fun x => x.rests = false :=
    all_changeId (P := fun x => x.rests = false) rfl (fun _ => rfl) (fun _ _ => rfl)
      (fun _ => rfl) rfl rfl
  refine papers_of_restless hrest fun w hw => ?_
  rw [changeId_pool]
  exact ⟨hw.renumber id, fun c hc => by rwa [Pool.isSick_renumbered]⟩

theorem papers_makeSick (a : ActorRef) :
    Leads (Papers (σ := σ) (some a)) (makeSick a) fun _ => Papers none := by
  have hrest := all_makeSick (P := fun x : Atom σ => x.rests = false) (a := a) rfl (fun _ => rfl)
    rfl rfl fun _ => rfl
  refine papers_of_restless hrest fun w hw => ?_
  rw [makeSick_pool]
  refine ⟨hw.halt, fun c hc => ?_⟩
  have hold := Pool.phaseOf_isSome_iff.mp (by rw [Pool.isSick_iff.mp hc]; rfl)
  exact (Pool.isSick_halted _ a c (Pool.boxOf_isSome_iff.mpr hold)).mpr (.inr hc)

end Act

open Act

theorem papers_upkeep {company : Company σ} (hc : company.Postal) :
    Upkeep company Papers Awaited where
  plain who x hx := papers_atom (Atom.quiet_of_plain hx)
  outside who c := papers_of_postal (hc c)
  revoke who c := papers_of_postal (.revoke c)
  create who id := (papers_create id).mono (fun _ _ hp => hp.1) fun _ _ _ hp => hp
  enlist who id b size x hid hb hidle := by
    subst hb
    exact papers_enlist size hid hidle
  claim := papers_claim
  finish := papers_finish
  changeId := papers_changeId
  makeSick := papers_makeSick

/-- In every run of routines, one after another and by either strategy, the records agree at
every moment, whatever messages the actors get and whatever outsiders do with addresses and with
mailboxes of their own. -/
theorem identities_agree (company : Company σ) (hc : company.Postal) (config : Config)
    (env : σ.Env) (rs : List (Routine σ)) (w : World σ) (h : List (Visit σ))
    (hw : ((Routine.all company rs).run (.empty config env)).2 = w)
    (hh : (Routine.all company rs).visits (.empty config env) = h) : Observed h w := by
  have hall : Papers none ([] ++ h) w := by
    rw [← hw, ← hh]
    exact (papers_upkeep hc).all rs [] _ (Papers.start config env)
  exact hall.2

namespace Squatter

def signature : Signature where
  Role := Unit
  Value := Unit
  Env := Unit
  Call := ActorId
  Reply := fun _ => Except Error BoxRef

/-- Roles that do nothing, and an outside that takes the address of an ID away and settles there
itself. -/
def company : Company signature where
  behaviour := { nameOf := fun _ => "mute", handle := fun _ _ _ => .done ⟨(), .returned .complete⟩ }
  outside := fun id => do
    let _ ← Act.revoke id.address
    Act.createMailbox id.address

/-- An actor loses its address to an outsider, cannot be renumbered after that, and stops. -/
def takeover : List (Routine signature) :=
  [.serve (.ask (.register ()) fun _ => .done ()), .serve (.ask (.call ⟨1⟩) fun _ => .done ()),
    .slip 0 (.ofControl (.setId ⟨7⟩)), .drain 0, .slip 0 .poison, .drain 0]

end Squatter

theorem takeover_agrees :
    ((Routine.all Squatter.company Squatter.takeover).run (.empty {} ())).2.pool.isSick 0 ∧
      Observed ((Routine.all Squatter.company Squatter.takeover).visits (.empty {} ()))
        ((Routine.all Squatter.company Squatter.takeover).run (.empty {} ())).2 := by
  have hc : Squatter.company.Postal :=
    fun id => .bind (.revoke id.address) fun _ => .createMailbox id.address
  refine ⟨by decide +kernel, ?_⟩
  exact identities_agree Squatter.company hc {} () Squatter.takeover _ _ rfl rfl

end ActorSystem
