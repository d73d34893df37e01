import ActorSystem.Proofs.Act.Service
import ActorSystem.Proofs.Identity.Agreement

/-!
# The moment at which an actor is taken

While one actor is drained no other is taken. So what every routine keeps between one drain and the
next holds whenever an actor is taken, be it in the middle of a sweep.

* `Upkeep.atClaims`: this, of any invariant with an upkeep.
* `inOrder_of_claim`: the papers of all actors are in order then.
-/

namespace ActorSystem

variable {σ : Signature} {company : Company σ} {α : Type}

def Atom.isClaim : Atom σ → Bool
  | claim _ => true
  | _ => false

/-- `P` held whenever an actor was taken. -/
def AtClaims (P : World σ → Prop) (h : List (Visit σ)) : Prop :=
  ∀ v ∈ h, v.atom.isClaim → P v.world

open Act

section

variable {P : World σ → Prop} {I : Option ActorRef → Fact σ}
variable {J : Option ActorRef → ActorId → BoxRef → Fact σ}

theorem leads_atClaims {Q : Fact σ} {R : α → Fact σ} {t : Act σ α}
    (ht : t.All (·.isClaim = false)) (hl : Leads Q t R) :
    Leads (fun h w => Q h w ∧ AtClaims P h) t fun r h w => R r h w ∧ AtClaims P h := by
  rintro h w ⟨hq, hh⟩
  refine ⟨hl h w hq, fun v hv hclaim => ?_⟩
  rcases List.mem_append.mp hv with hv | hv
  · exact hh v hv hclaim
  · rw [visits_of_all ht w v hv] at hclaim
    cases hclaim

theorem Upkeep.atClaims (hs : Upkeep company I J) (hc : company.Civil)
    (hp : ∀ h w, I none h w → P w) :
    Upkeep company (fun who h w => I who h w ∧ AtClaims P h)
      fun who id b h w => J who id b h w ∧ AtClaims P h where
  plain who x hx := by
    refine leads_atClaims ⟨?_, fun _ => trivial⟩ (hs.plain who x hx)
    cases x <;> first | rfl | cases hx
  outside who c := by
    refine leads_atClaims ((hc c).mono fun x hx => ?_) (hs.outside who c)
    cases x <;> first | rfl | cases hx
  revoke who c :=
    leads_atClaims (all_revokeFor (P := fun x => x.isClaim = false) (fun _ => rfl) rfl)
      (hs.revoke who c)
  create who id := by
    have hall : (createMailbox (σ := σ) id.address).All (·.isClaim = false) :=
      all_createMailbox (P := fun x => x.isClaim = false) (fun _ => rfl) rfl
    refine (leads_atClaims hall (hs.create who id)).mono (fun h w hi => ⟨⟨hi.1.1, hi.2⟩, hi.1.2⟩) ?_
    intro r h w hi
    cases r <;> exact hi
  enlist who id b size x hid hb hidle :=
    leads_atClaims ⟨rfl, fun _ => ⟨rfl, fun _ => ⟨rfl, fun _ => trivial⟩⟩⟩
      (hs.enlist who id b size x hid hb hidle)
  claim a := by
    rintro h w ⟨hi, hh⟩
    refine ⟨hs.claim a h w hi, fun v hv hclaim => ?_⟩
    rcases List.mem_append.mp hv with hv | hv
    · exact hh v hv hclaim
    · obtain rfl := List.mem_singleton.mp hv
      exact hp h w hi
  finish a o := leads_atClaims ⟨rfl, fun _ => trivial⟩ (hs.finish a o)
  changeId a id := by
    refine leads_atClaims (changeId_all (fun x hx => ?_) id) (hs.changeId a id)
    cases x <;> first | rfl | cases hx
  makeSick a := leads_atClaims
    (all_makeSick (P := fun x => x.isClaim = false) rfl (fun _ => rfl) rfl rfl fun _ => rfl)
    (hs.makeSick a)

end

/-- Whenever an actor is taken, in whatever routine, the papers of all actors are in order. -/
theorem inOrder_of_claim (hc : company.Civil) (hp : company.Postal) {config : Config} {env : σ.Env}
    {rs : List (Routine σ)} {v : Visit σ}
    (hv : v ∈ (Routine.all company rs).visits (.empty config env)) (hclaim : v.atom.isClaim) :
    v.world.pool.InOrder none := by
  have hkept := (papers_upkeep hp).atClaims hc (P := fun w => w.pool.InOrder none)
    fun _ _ hi => hi.1
  have hstart : AtClaims (fun w : World σ => w.pool.InOrder none) [] := by
    intro v hv
    cases hv
  have hall := hkept.all rs [] _ ⟨Papers.start config env, hstart⟩
  exact hall.2 v hv hclaim

end ActorSystem
