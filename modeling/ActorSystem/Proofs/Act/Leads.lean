import ActorSystem.Routine

/-!
# Where an act leads

`Leads P t Q` says that the act `t`, carried out with nobody in between, leads from any world of
which `P` holds to one of which `Q` holds. Both may also speak of the accesses made so far, and
`Q` of what the act came to.

* `Leads.bind`: one act after another.
* `Leads.of_all`: an act keeps what each of its accesses keeps.
-/

namespace ActorSystem

variable {σ : Signature} {α β : Type}

/-- What is true of the accesses so far and of the world they led to. -/
abbrev Fact (σ : Signature) := List (Visit σ) → World σ → Prop

namespace Act

def Leads (P : Fact σ) (t : Act σ α) (Q : α → Fact σ) : Prop :=
  ∀ h w, P h w → Q (t.run w).1 (h ++ t.visits w) (t.run w).2

variable {P P' : Fact σ} {Q Q' : α → Fact σ} {R : β → Fact σ}

theorem Leads.pure {a : α} (hp : ∀ h w, P h w → Q a h w) : Leads P (pure a) Q := by
  intro h w hw
  rw [run_pure, visits_pure, List.append_nil]
  exact hp h w hw

theorem Leads.bind {t : Act σ α} {f : α → Act σ β} (ht : Leads P t Q)
    (hf : ∀ a, Leads (Q a) (f a) R) : Leads P (t >>= f) R := by
  intro h w hw
  have hr := hf _ _ _ (ht h w hw)
  rwa [run_bind, visits_bind, ← List.append_assoc]

theorem Leads.mono {t : Act σ α} (ht : Leads P t Q) (hp : ∀ h w, P' h w → P h w)
    (hq : ∀ a h w, Q a h w → Q' a h w) : Leads P' t Q' :=
  fun h w hw => hq _ _ _ (ht h w (hp h w hw))

theorem Leads.atom {x : Atom σ} {Q : x.Answer → Fact σ}
    (hx : ∀ h w, P h w → Q (x.answer w) (h ++ [⟨w, x⟩]) (x.effect w)) :
    Leads P (atom x) Q :=
  hx

/-- The induction over an act: what is kept by each of its accesses is kept by all of it. -/
theorem Leads.of_all {t : Act σ α} {ok : Atom σ → Prop} (ht : t.All ok)
    (hx : ∀ x, ok x → ∀ h w, P h w → P (h ++ [⟨w, x⟩]) (x.effect w)) :
    Leads P t fun _ => P := by
  induction t with
  | done a => exact Leads.pure fun h w hw => hw
  | ask x next ih =>
    intro h w hw
    have hr := ih (x.answer w) (ht.2 _) _ _ (hx x ht.1 h w hw)
    rwa [List.append_assoc] at hr

end Act

end ActorSystem
