import ActorSystem.Proofs.Identity.InOrder

/-!
# Business with the post office

Whoever is called from outside may look around, send letters, make mailboxes at any address that
is free, take any address away, and do with mailboxes of its own as it likes. What it may not do
is to lay hands on the mailbox of an actor. `Act.Postal` is this rule.

* `Postal.of_quiet`: what makes quiet accesses only keeps the rule.
* `Act.Tactful`: the papers of the actors stay in order, and nobody is stopped.
-/

namespace ActorSystem

variable {σ : Signature} {α β : Type}

namespace Act

/-- Does something to a mailbox on behalf of an owner that is no actor, if there is one. -/
def asOwner (b : BoxRef) (t : Act σ α) : Act σ (Option α) := do
  if (← pool).isSpare b then
    let r ← t
    return some r
  else return none

theorem all_asOwner {P : Atom σ → Prop} (hlook : P .look) (b : BoxRef) {t : Act σ α}
    (ht : t.All P) : (asOwner b t).All P := by
  refine ⟨hlook, fun (w : World σ) => ?_⟩
  change Dialogue.All P (if w.pool.isSpare b then _ else _)
  split
  · exact Dialogue.all_bind ht fun _ => trivial
  · trivial

theorem all_poll {P : Atom σ → Prop} (hlook : P .look)
    (hoffice : ∀ f, P (.alter (·.modifyOffice f))) (b : BoxRef) : (poll b).All P := by
  refine ⟨hlook, fun (w : World σ) => ?_⟩
  change Dialogue.All P (Dialogue.bind (Dialogue.done w.pool) _)
  dsimp only [Dialogue.bind]
  split
  · trivial
  · exact ⟨hoffice _, fun _ => trivial⟩

inductive Postal : {α : Type} → Act σ α → Prop
  | pure {α : Type} (a : α) : Postal (pure a)
  | bind {α β : Type} {t : Act σ α} {f : α → Act σ β} (ht : Postal t) (hf : ∀ a, Postal (f a)) :
    Postal (t >>= f)
  | atom {x : Atom σ} (hx : x.quiet) : Postal (atom x)
  | createMailbox (c : Address) : Postal (createMailbox c)
  | revoke (c : Address) : Postal (revoke c)
  | poll (b : BoxRef) : Postal (asOwner b (poll b))
  | discard (b : BoxRef) : Postal (asOwner b (discard b))
  | readdress (b : BoxRef) (c : Address) : Postal (asOwner b (readdress b c))

theorem Postal.of_quiet {t : Act σ α} (ht : t.All (·.quiet)) : Postal t := by
  induction t with
  | done a => exact .pure a
  | ask x next ih => exact .bind (t := Act.atom x) (.atom ht.1) fun r => ih r (ht.2 r)

end Act

/-- The outside keeps to its own mailboxes. -/
def Company.Postal (company : Company σ) : Prop := ∀ c, (company.outside c).Postal

theorem Company.Discreet.postal {company : Company σ} (hc : company.Discreet) : company.Postal :=
  fun c => .of_quiet (hc c)

/-! ## What becomes of the mailboxes of actors -/

namespace Office

variable {V : Type} {o o' : Office V} {b d : BoxRef}

/-- The other mailboxes are alone with their owners and where they were. -/
def Spares (b : BoxRef) (o o' : Office V) : Prop :=
  ∀ d, d ≠ b → o'.isOwned d = o.isOwned d ∧ o'.addressOf d = o.addressOf d

theorem Spares.modifyBox (o : Office V) (b : BoxRef) (f : Mailbox V → Mailbox V) :
    Spares b o (o.modifyBox b f) := by
  intro d hd
  simp only [isOwned, addressOf, box?_modifyBox, if_neg (Ne.symm hd), and_self]

theorem Spares.poll {m : Message V} (h : o.poll b = some (m, o')) : Spares b o o' := by
  unfold Office.poll at h
  split at h
  · cases h
  · cases h
    exact .modifyBox o b _

theorem Spares.discard (o : Office V) (b : BoxRef) : Spares b o (o.discard b) := by
  unfold Office.discard
  dsimp only
  split
  · exact .modifyBox o b _
  · exact .modifyBox o b _

theorem Spares.readdress {c : Address} (hb : o.isOwned b) (h : o.readdress b c = .ok o') :
    Spares b o o' := by
  intro d hd
  obtain ⟨howned, haddress⟩ := mailbox_readdress hb h d
  rw [if_neg hd] at haddress
  exact ⟨howned, haddress⟩

end Office

namespace Pool.InOrder

variable {who : Option ActorRef} {p : Pool σ} {b : BoxRef} {o : Office σ.Value}

theorem editSpare (h : InOrder who p) (hb : p.isSpare b) (ho : Office.Edited p.office o)
    (hs : Office.Spares b p.office o) : InOrder who { p with office := o } := by
  refine h.editOffice ho rfl fun a d hd => hs d ?_
  rintro rfl
  exact (isSpare_iff.mp hb).2 a hd

end Pool.InOrder

/-! ## The papers of the actors -/

namespace Act

/-- The act keeps the papers of all actors in order, and stops none and wakes none. -/
def Tactful (t : Act σ α) : Prop :=
  ∀ who w, Pool.InOrder who w.pool →
    Pool.InOrder who (t.run w).2.pool ∧ ∀ a, (t.run w).2.pool.isSick a = w.pool.isSick a

theorem tactful_createMailbox (c : Address) : Tactful (σ := σ) (createMailbox c) := by
  intro who w hw
  rw [run_createMailbox]
  cases hc : w.pool.office.create c with
  | error e => exact ⟨hw, fun _ => rfl⟩
  | ok made => exact ⟨(hw.create hc).1, fun _ => rfl⟩

theorem tactful_revoke (c : Address) : Tactful (σ := σ) (revoke c) := by
  intro who w hw
  rw [revoke, revokeFor_pool]
  exact ⟨hw.revoke c, fun _ => rfl⟩

theorem tactful_asOwner {b : BoxRef} {t : Act σ α}
    (ht : ∀ w : World σ, w.pool.office.isOwned b →
      ∃ o, (t.run w).2.pool = { w.pool with office := o } ∧
        Office.Edited w.pool.office o ∧ Office.Spares b w.pool.office o) :
    Tactful (asOwner b t) := by
  intro who w hw
  rw [asOwner, run_pool_bind]
  split
  · rename_i hb
    obtain ⟨o, hpool, hedited, hspares⟩ := ht w (Pool.isSpare_iff.mp hb).1
    rw [run_bind]
    change Pool.InOrder who (t.run w).2.pool ∧ _
    rw [hpool]
    exact ⟨hw.editSpare hb hedited hspares, fun a => by rw [run_pure, hpool]; rfl⟩
  · exact ⟨hw, fun _ => rfl⟩

theorem tactful_poll (b : BoxRef) : Tactful (σ := σ) (asOwner b (poll b)) := by
  refine tactful_asOwner fun w _ => ?_
  rw [run_poll]
  cases hp : w.pool.office.poll b with
  | none => exact ⟨w.pool.office, rfl, .refl _, fun _ _ => ⟨rfl, rfl⟩⟩
  | some taken => exact ⟨taken.2, rfl, .poll hp, .poll hp⟩

theorem tactful_discard (b : BoxRef) : Tactful (σ := σ) (asOwner b (discard b)) := by
  refine tactful_asOwner fun w _ => ?_
  exact ⟨w.pool.office.discard b, rfl, .discard _ _, .discard _ _⟩

theorem tactful_readdress (b : BoxRef) (c : Address) :
    Tactful (σ := σ) (asOwner b (readdress b c)) := by
  refine tactful_asOwner fun w hb => ?_
  rw [run_readdress]
  cases hr : w.pool.office.readdress b c with
  | error e => exact ⟨w.pool.office, rfl, .refl _, fun _ _ => ⟨rfl, rfl⟩⟩
  | ok o =>
    refine ⟨o, ?_, .readdress hr, .readdress hb hr⟩
    dsimp only
    split <;> rfl

end Act

end ActorSystem
