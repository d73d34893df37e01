import ActorSystem.Proofs.Act.Makeup
import ActorSystem.Proofs.Act.Upkeep
import ActorSystem.Proofs.Crew.Addresses
import ActorSystem.Proofs.Identity.Postal

/-!
# Worlds that occur

A world occurs if a run comes through it. A single thread may be anywhere in what it does, and the
outside may do with mailboxes of its own as it likes; or there are many threads, and the outside
makes public accesses only, at any moment.

* `World.Occurs.lodged`: the post office is open all the time, and no actor loses its mailbox.
-/

namespace ActorSystem

variable {σ : Signature} {α : Type}

inductive World.Occurs (company : Company σ) (config : Config) (env : σ.Env) : World σ → Prop
  /-- One thread, before any access that it makes. -/
  | alone (hc : company.Postal) {rs : List (Routine σ)} {v : Visit σ}
    (hv : v ∈ (Routine.all company rs).visits (.empty config env)) :
    Occurs company config env v.world
  /-- Many threads. -/
  | among (hc : company.Civil) {ms : List (Move σ)} {c : Crew σ}
    (hplay : (Crew.empty config env).play company ms = some c) : Occurs company config env c.world

/-- The post office is open, and every actor has its mailbox. -/
structure Pool.Lodged (p : Pool σ) : Prop where
  opened : p.office.closed = false
  home : ∀ a b, p.boxOf a = some b → p.office.isOwned b

/-- The access registers nobody, and is one that a pool makes. -/
def Atom.ordinary : Atom σ → Bool
  | alter _ | enroll _ => false
  | _ => true

namespace Pool.Lodged

variable {w : World σ} {x : Atom σ} {b : BoxRef} {o : Office σ.Value}

theorem empty (config : Config) (env : σ.Env) : (World.empty config env : World σ).pool.Lodged where
  opened := rfl
  home a b hb := by simp [Pool.boxOf, Pool.actor?, World.empty] at hb

theorem ordinary (h : w.pool.Lodged) (hx : x.ordinary) : (x.effect w).pool.Lodged := by
  have hne : ∀ f, x ≠ .alter f := by
    rintro f rfl
    cases hx
  have htouched := Atom.touched hne w
  refine ⟨htouched.closed_eq.trans h.opened, fun a b hb => htouched.isOwned (h.home a b ?_)⟩
  rw [Atom.boxOf_effect] at hb
  cases x <;> first | exact hb | cases hx

theorem enroll (h : w.pool.Lodged) {y : Actor σ} (hy : w.pool.office.isOwned y.box) :
    ((Atom.enroll y).effect w).pool.Lodged := by
  refine ⟨h.opened, fun a b hb => ?_⟩
  rcases Atom.boxOf_enroll hb with ⟨-, rfl⟩ | ⟨-, hb⟩
  · exact hy
  · exact h.home a b hb

/-- What is done to a mailbox that no actor has. -/
theorem editSpare {p : Pool σ} (h : p.Lodged) (hb : p.isSpare b)
    (hclosed : o.closed = p.office.closed) (ho : Office.Spares b p.office o) :
    Lodged { p with office := o } := by
  refine ⟨hclosed.trans h.opened, fun a d hd => ?_⟩
  have hne : d ≠ b := by
    rintro rfl
    exact (isSpare_iff.mp hb).2 a hd
  rw [(ho d hne).1]
  exact h.home a d hd

end Pool.Lodged

/-! ## One thread -/

/-- Every actor has its mailbox, and always had it. -/
def AlwaysLodged : Fact σ := fun h w => w.pool.Lodged ∧ ∀ v ∈ h, v.world.pool.Lodged

namespace Act

theorem lodged_snoc {h : List (Visit σ)} {w w' : World σ} {x : Atom σ} (hl : AlwaysLodged h w)
    (hw : w'.pool.Lodged) : AlwaysLodged (h ++ [⟨w, x⟩]) w' := by
  refine ⟨hw, fun v hv => ?_⟩
  rcases List.mem_append.mp hv with hv | hv
  · exact hl.2 v hv
  · obtain rfl := List.mem_singleton.mp hv
    exact hl.1

theorem lodged_of_all {t : Act σ α} (ht : t.All (·.ordinary)) :
    Leads AlwaysLodged t fun _ => AlwaysLodged :=
  Leads.of_all ht fun _ hx _ _ hl => lodged_snoc hl (hl.1.ordinary hx)

theorem lodged_atom {x : Atom σ} (hx : x.ordinary) :
    Leads AlwaysLodged (atom x) fun _ => AlwaysLodged :=
  Leads.atom fun _ _ hl => lodged_snoc hl (hl.1.ordinary hx)

/-! ### Outsiders -/

/-- A look shows the pool as it is. -/
theorem lodged_pool :
    Leads (AlwaysLodged (σ := σ)) pool fun p h w => AlwaysLodged h w ∧ w.pool = p :=
  fun _ _ hl => ⟨lodged_snoc hl hl.1, rfl⟩

theorem lodged_asOwner {b : BoxRef} {t : Act σ α}
    (ht : Leads (fun h w => AlwaysLodged h w ∧ w.pool.isSpare b) t fun _ => AlwaysLodged) :
    Leads AlwaysLodged (asOwner b t) fun _ => AlwaysLodged := by
  refine lodged_pool.bind fun p => ?_
  split
  · rename_i hb
    have hkept : Leads (fun h w => AlwaysLodged h w ∧ w.pool.isSpare b)
        (t >>= fun r => pure (some r)) fun _ => AlwaysLodged :=
      ht.bind fun r => Leads.pure fun _ _ hl => hl
    refine hkept.mono (fun h w hl => ⟨hl.1, ?_⟩) fun _ _ _ hl => hl
    rw [hl.2]
    exact hb
  · exact Leads.pure fun _ _ hl => hl.1

theorem lodged_poll (b : BoxRef) :
    Leads (AlwaysLodged (σ := σ)) (asOwner b (poll b)) fun _ => AlwaysLodged := by
  have hlook : Leads (fun h w => AlwaysLodged (σ := σ) h w ∧ w.pool.isSpare b) pool
      fun p h w => (AlwaysLodged h w ∧ w.pool.isSpare b) ∧ w.pool = p :=
    fun _ _ hl => ⟨⟨lodged_snoc hl.1 hl.1.1, hl.2⟩, rfl⟩
  refine lodged_asOwner (hlook.bind fun p => ?_)
  cases hp : p.office.poll b with
  | none => exact Leads.pure fun _ _ hl => hl.1.1
  | some taken =>
    refine Leads.bind (Q := fun _ => AlwaysLodged) ?_ fun _ => Leads.pure fun _ _ hl => hl
    refine Leads.atom fun h w hl => lodged_snoc hl.1.1 ?_
    rw [← hl.2] at hp
    exact hl.1.1.1.editSpare hl.1.2 (Office.Edited.poll hp).closed_eq (.poll hp)

theorem lodged_discard (b : BoxRef) :
    Leads (AlwaysLodged (σ := σ)) (asOwner b (discard b)) fun _ => AlwaysLodged :=
  lodged_asOwner <| Leads.atom fun _ _ hl =>
    lodged_snoc hl.1 (hl.1.1.editSpare hl.2 (Office.Edited.discard _ b).closed_eq (.discard _ b))

theorem lodged_of_postal {t : Act σ α} (ht : Postal t) :
    Leads AlwaysLodged t fun _ => AlwaysLodged := by
  induction ht with
  | pure a => exact Leads.pure fun _ _ hl => hl
  | bind _ _ ih ih' => exact ih.bind ih'
  | @atom x hx =>
    refine lodged_atom ?_
    cases x <;> first | rfl | cases hx
  | createMailbox c =>
    exact lodged_of_all (all_createMailbox (P := fun x => x.ordinary) (fun _ => rfl) rfl)
  | revoke c => exact lodged_of_all (all_revokeFor (P := fun x => x.ordinary) (fun _ => rfl) rfl)
  | poll b => exact lodged_poll b
  | discard b => exact lodged_discard b
  | readdress b c =>
    have hall : (readdress (σ := σ) b c).All (·.ordinary) :=
      all_readdress (P := fun x => x.ordinary) rfl (fun _ => rfl) (fun _ => rfl) rfl
    exact lodged_asOwner ((lodged_of_all hall).mono (fun _ _ hl => hl.1) fun _ _ _ hl => hl)

/-! ### The pool itself -/

/-- A new mailbox has an owner. -/
theorem lodged_create (id : ActorId) :
    Leads (AlwaysLodged (σ := σ)) (createMailbox id.address) fun r h w =>
      AlwaysLodged h w ∧ ∀ b, r = .ok b → w.pool.office.isOwned b := by
  intro h w hl
  have hall : (createMailbox (σ := σ) id.address).All (·.ordinary) :=
    all_createMailbox (P := fun x => x.ordinary) (fun _ => rfl) rfl
  refine ⟨lodged_of_all hall h w hl, fun b hb => ?_⟩
  rw [run_createMailbox] at hb ⊢
  cases hc : w.pool.office.create id.address with
  | error e =>
    rw [hc] at hb
    cases hb
  | ok made =>
    rw [hc] at hb
    cases hb
    change made.2.isOwned made.1
    rw [Office.isOwned, Office.box?_create hc, if_pos rfl]
    rfl

theorem lodged_enlist (id : ActorId) (size : Nat) (x : Actor σ) :
    Leads (fun h w => AlwaysLodged h w ∧ w.pool.office.isOwned x.box) (enlist id size x)
      fun _ => AlwaysLodged := by
  rintro h w ⟨hl, hb⟩
  have hreserved := lodged_atom (x := .reserve id) rfl h w hl
  have hready := lodged_atom (x := .report (.registered id x.name size)) rfl _ _ hreserved
  have hdone := lodged_snoc (x := .enroll x) hready (hready.1.enroll hb)
  rw [List.append_assoc, List.append_assoc] at hdone
  exact hdone

end Act

open Act

theorem lodged_upkeep {company : Company σ} (hc : company.Postal) :
    Upkeep company (fun _ => AlwaysLodged) fun _ _ b h w =>
      AlwaysLodged h w ∧ w.pool.office.isOwned b where
  plain _ x hx := by
    refine lodged_atom ?_
    cases x <;> first | rfl | cases hx
  outside _ c := lodged_of_postal (hc c)
  revoke _ c := lodged_of_all (all_revokeFor (P := fun x => x.ordinary) (fun _ => rfl) rfl)
  create _ id := by
    refine (lodged_create id).mono (fun _ _ hl => hl.1) fun r h w hl => ?_
    cases r with
    | ok b => exact ⟨hl.1, hl.2 b rfl⟩
    | error e => exact hl.1
  enlist _ id b size x _ hb _ := by
    subst hb
    exact lodged_enlist id size x
  claim a := lodged_atom rfl
  finish a o := lodged_atom rfl
  changeId a id := lodged_of_all
    (all_changeId (P := fun x => x.ordinary) rfl (fun _ => rfl) (fun _ _ => rfl) (fun _ => rfl) rfl rfl)
  makeSick a := lodged_of_all
    (all_makeSick (P := fun x => x.ordinary) rfl (fun _ => rfl) rfl rfl fun _ => rfl)

/-! ## Many threads -/

theorem Sane.lodged {company : Company σ} {config : Config} {env : σ.Env} {c : Crew σ}
    (hc : company.Civil) {ms : List (Move σ)}
    (hplay : (Crew.empty config env).play company ms = some c) : c.world.pool.Lodged := by
  refine ((Sane.empty config env).induction hc
    (P := fun c => c.world.pool.Lodged ∧ c.world.pool.office.Listed) ?_
    ⟨.empty config env, .empty⟩ hplay).2.1
  rintro c c' hs (⟨i, r, -, hw, -⟩ | ⟨i, r, o, -, hw, -⟩ | ⟨i, x, hx, -, hw, -⟩) hl
  · rwa [hw]
  · rwa [hw]
  rw [hw]
  refine ⟨?_, hl.2.touched (Atom.touched (Orderly.ne_alter hx) c.world)⟩
  cases x with
  | alter f => exact absurd rfl (Orderly.ne_alter hx f)
  | enroll y =>
    -- the mailbox of a new actor is one that its thread has just made
    obtain ⟨n, hdesk, -, -⟩ := hx.desk
    have hmade := (hs.housed.fresh i n y.box hdesk).1
    exact hl.1.enroll (hl.2.owned y.box hmade)
  | _ => exact hl.1.ordinary rfl

theorem World.Occurs.lodged {company : Company σ} {config : Config} {env : σ.Env} {w : World σ}
    (h : w.Occurs company config env) : w.pool.Lodged := by
  cases h with
  | @alone hc rs v hv =>
    have hstart : AlwaysLodged [] (World.empty config env : World σ) := by
      refine ⟨.empty config env, fun v hv => ?_⟩
      cases hv
    have hall := (lodged_upkeep hc).all rs [] _ hstart
    exact hall.2 v hv
  | among hc hplay => exact Sane.lodged hc hplay

end ActorSystem
