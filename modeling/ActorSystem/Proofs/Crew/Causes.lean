import ActorSystem.Proofs.Act.Patrols
import ActorSystem.Proofs.Act.Service
import ActorSystem.Proofs.Crew.Heeds

/-!
# Why an actor stops

A rule that all acts of a pool heed is about stopping (`Heedful`): whoever has taken a poison
message for an actor makes this actor stop by its very next access, and nobody makes an actor stop
unless it has just taken a poison message for it or just seen its role give up.

* `consume_tame`: a batch.
* `act_tame`: every routine.
-/

namespace ActorSystem

variable {σ : Signature} {α β : Type}

def Message.isPoison {V : Type} (m : Message V) : Bool :=
  match m.body with
  | .control .poison => true
  | _ => false

theorem Message.isControl_of_isPoison {V : Type} {m : Message V} (hm : m.isPoison) :
    m.isControl := by
  obtain ⟨source, body⟩ := m
  cases body with
  | control c => rfl
  | user value => cases hm

/-! ## The rule about stopping -/

/-- The last access took a poison message for `a`. -/
def TookPoison (a : ActorRef) (h : List (Visit σ)) : Prop :=
  ∃ before w m, h = before ++ [⟨w, .takeMail a⟩] ∧ (w.pool.mailOf a).head? = some m ∧ m.isPoison

/-- By the last accesses the role of `a` has handled a message and came to `poisoned`. -/
def GaveUp (company : Company σ) (a : ActorRef) (h : List (Visit σ)) : Prop :=
  ∃ before w m role ctx vs ending w',
    h = before ++ ⟨w, .dispatch a m⟩ :: vs ++ [⟨w', .setRole a ending.role⟩] ∧
      (Atom.dispatch a m).answer w = some (role, ctx) ∧
      (Act.interpret company (company.behaviour.handle role ctx m)).Came vs ending ∧
      ending.verdict = .returned .poisoned

structure Heedful (company : Company σ) (h : List (Visit σ)) (v : Visit σ) : Prop where
  cause : ∀ a, v.atom = .sicken a → TookPoison a h ∨ GaveUp company a h
  stops : ∀ a, TookPoison a h → v.atom = .sicken a

/-- No poison message is waiting to take effect. -/
def AtEase (h : List (Visit σ)) : Prop := ∀ a, ¬TookPoison a h

theorem atEase_nil : AtEase ([] : List (Visit σ)) := by
  rintro a ⟨before, w, m, hnil, -⟩
  simp at hnil

/-- What the last access was. -/
theorem tookPoison_snoc {h : List (Visit σ)} {v : Visit σ} {a : ActorRef} :
    TookPoison a (h ++ [v]) ↔
      v.atom = .takeMail a ∧ ∃ m, (v.world.pool.mailOf a).head? = some m ∧ m.isPoison := by
  constructor
  · rintro ⟨before, w, m, hsnoc, hm, hpoison⟩
    obtain ⟨-, hv⟩ := List.append_inj' hsnoc rfl
    obtain rfl := List.singleton_inj.mp hv
    exact ⟨rfl, m, hm, hpoison⟩
  · obtain ⟨w, x⟩ := v
    rintro ⟨rfl, m, hm, hpoison⟩
    exact ⟨h, w, m, rfl, hm, hpoison⟩

/-- The access neither takes a message nor makes an actor stop. -/
def Atom.meek : Atom σ → Bool
  | takeMail _ | sicken _ => false
  | _ => true

theorem atEase_snoc {h : List (Visit σ)} {v : Visit σ} (hv : v.atom.meek) : AtEase (h ++ [v]) := by
  intro a ha
  rw [(tookPoison_snoc.mp ha).1] at hv
  cases hv

namespace Act

variable {company : Company σ} {h : List (Visit σ)}

theorem heedful_of_meek {v : Visit σ} (hv : v.atom.meek) (hh : AtEase h) : Heedful company h v where
  cause a ha := by
    rw [ha] at hv
    cases hv
  stops a ha := absurd ha (hh a)

theorem heeds_of_meek {t : Act σ α} (ht : t.All (·.meek)) (hh : AtEase h) :
    Heeds (Heedful company) h t fun r h' => AtEase h' ∧ ∃ vs, h' = h ++ vs ∧ t.Came vs r := by
  induction t generalizing h with
  | done a => exact ⟨hh, [], (List.append_nil h).symm, rfl, rfl⟩
  | ask x next ih =>
    intro w
    refine ⟨heedful_of_meek ht.1 hh, (ih _ (ht.2 _) (atEase_snoc ht.1)).mono ?_⟩
    rintro r h' ⟨hease, vs, rfl, hcame⟩
    exact ⟨hease, ⟨w, x⟩ :: vs, by rw [List.append_assoc]; rfl, w, vs, rfl, hcame⟩

/-- Begun at ease the act heeds the rule and ends at ease. -/
def Tame (company : Company σ) (t : Act σ α) : Prop :=
  ∀ h, AtEase h → Heeds (Heedful company) h t fun _ h' => AtEase h'

namespace Tame

theorem of_meek {t : Act σ α} (ht : t.All (·.meek)) : Tame company t :=
  fun _ hh => (heeds_of_meek ht hh).mono fun _ _ hease => hease.1

theorem pure (a : α) : Tame company (Pure.pure a : Act σ α) := fun _ hh => hh

theorem bind {t : Act σ α} {f : α → Act σ β} (ht : Tame company t)
    (hf : ∀ a, Tame company (f a)) : Tame company (t >>= f) :=
  fun h hh => (ht h hh).bind fun a h' hease => hf a h' hease

end Tame

/-! ## Meek acts -/

theorem report_meek (e : Event) : (report e : Act σ Unit).All (·.meek) := all_report rfl

theorem changeId_meek (a : ActorRef) (id : ActorId) : (changeId a id : Act σ Unit).All (·.meek) :=
  all_changeId (P := fun x => x.meek) rfl (fun _ => rfl) (fun _ _ => rfl) (fun _ => rfl) rfl rfl

theorem interpret_meek (hc : company.Civil) {α : Type} (program : Program σ α) :
    (interpret company program).All (·.meek) := by
  refine (interpret_asked hc program).mono fun x hx => ?_
  cases x <;> first | rfl | cases hx

/-! ## A batch -/

/-- Now `a` may stop. -/
def Due (company : Company σ) (a : ActorRef) (h : List (Visit σ)) : Prop :=
  ∀ w, Heedful company h ⟨w, .sicken a⟩

theorem due_of_tookPoison {a : ActorRef} (ha : TookPoison a h) : Due company a h := by
  refine fun w => ⟨?_, fun c hc => ?_⟩
  · rintro c ⟨⟩
    exact .inl ha
  · obtain ⟨before, w, m, rfl, -⟩ := ha
    cases (tookPoison_snoc.mp hc).1
    rfl

theorem due_of_gaveUp {a : ActorRef} (hh : AtEase h) (ha : GaveUp company a h) :
    Due company a h := by
  refine fun w => ⟨?_, fun c hc => absurd hc (hh c)⟩
  rintro c ⟨⟩
  exact .inr ha

theorem dispatch_heeds (hc : company.Civil) (hh : AtEase h) (a : ActorRef) (m : Message σ.Value) :
    Heeds (Heedful company) h (dispatch company a m) fun o h' =>
      AtEase h' ∧ (o = .poisoned → GaveUp company a h') := by
  intro w
  refine ⟨heedful_of_meek rfl hh, ?_⟩
  have hease : AtEase (h ++ [⟨w, .dispatch a m⟩]) := atEase_snoc rfl
  cases hfound : (Atom.dispatch a m).answer w with
  | none => exact ⟨hease, nofun⟩
  | some found =>
    obtain ⟨role, ctx⟩ := found
    refine (heeds_of_meek (interpret_meek hc _) hease).bind ?_
    rintro ending _ ⟨hease', vs, rfl, hcame⟩
    intro w'
    refine ⟨heedful_of_meek rfl hease', ?_⟩
    have hset : AtEase (h ++ [⟨w, .dispatch a m⟩] ++ vs ++ [⟨w', .setRole a ending.role⟩]) :=
      atEase_snoc rfl
    cases hverdict : ending.verdict with
    | returned o =>
      refine ⟨hset, ?_⟩
      rintro rfl
      exact ⟨h, w, m, role, ctx, vs, ending, w', by simp, hfound, hcame, hverdict⟩
    | panicked p =>
      have hlook : (do report (.rolePanicked ((← pool).addressOf a) p.message) : Act σ Unit).All
          (·.meek) := ⟨rfl, fun _ => report_meek _⟩
      exact (heeds_of_meek hlook hset).bind fun _ h' hease => ⟨hease.1, nofun⟩

/-- A message that was just taken. -/
theorem handleMail_heeds (hc : company.Civil) {a : ActorRef} {m : Message σ.Value} {w : World σ}
    (hm : (w.pool.mailOf a).head? = some m) :
    Heeds (Heedful company) (h ++ [⟨w, .takeMail a⟩]) (handleMail company a m) fun o h' =>
      if o = .poisoned then Due company a h' else AtEase h' := by
  by_cases hpoison : m.isPoison
  · have htook : TookPoison a (h ++ [⟨w, .takeMail a⟩]) := ⟨h, w, m, rfl, hm, hpoison⟩
    obtain ⟨source, body⟩ := m
    cases body with
    | user value => cases hpoison
    | control c =>
      cases c with
      | poison => exact due_of_tookPoison htook
      | _ => cases hpoison
  · have hease : AtEase (h ++ [⟨w, .takeMail a⟩]) := by
      rintro c ⟨before, w', m', hsnoc, hm', hpoison'⟩
      cases (List.append_inj' hsnoc rfl).2
      cases hm.symm.trans hm'
      exact hpoison hpoison'
    obtain ⟨source, body⟩ := m
    cases body with
    | user value =>
      refine (dispatch_heeds hc hease a _).mono fun o h' hend => ?_
      split
      · rename_i ho
        exact due_of_gaveUp hend.1 (hend.2 ho)
      · exact hend.1
    | control c =>
      cases c with
      | poison => exact absurd rfl hpoison
      | setName name => exact fun w => ⟨heedful_of_meek rfl hease, atEase_snoc rfl⟩
      | setId id =>
        exact (heeds_of_meek (changeId_meek a id) hease).bind fun _ _ hease => hease.1

theorem makeSick_heeds {a : ActorRef} (ha : Due company a h) :
    Heeds (Heedful company) h (makeSick a) fun _ h' => AtEase h' := by
  intro w
  refine ⟨ha w, ?_⟩
  have hease : AtEase (h ++ [⟨w, .sicken a⟩]) := by
    intro c hc
    cases (tookPoison_snoc.mp hc).1
  refine (heeds_of_meek ?_ hease).mono fun _ _ hease => hease.1
  refine ⟨rfl, fun _ => ⟨rfl, fun (w : World σ) => ?_⟩⟩
  have hrevoke : (revokeFor (.actor a) (w.pool.addressOf a)).All (·.meek) :=
    all_revokeFor (P := fun x : Atom σ => x.meek) (fun _ => rfl) rfl
  change Dialogue.All _ (revokeFor (.actor a) (w.pool.addressOf a) >>= fun _ => _)
  exact Dialogue.all_bind hrevoke fun _ => ⟨rfl, fun _ => report_meek _⟩

theorem consume_tame (hc : company.Civil) (a : ActorRef) (n : Nat) (sum : Outcome) :
    Tame company (consume company a n sum) := by
  induction n generalizing sum with
  | zero => exact Tame.pure _
  | succ n ih =>
    intro h hh
    have htake : Heeds (Heedful company) h (atom (.takeMail a)) fun mail h' =>
        ∃ w, h' = h ++ [⟨w, .takeMail a⟩] ∧ (w.pool.mailOf a).head? = mail :=
      Heeds.atom fun w => ⟨⟨nofun, fun c hc => absurd hc (hh c)⟩, w, rfl, rfl⟩
    refine htake.bind ?_
    rintro mail _ ⟨w, rfl, hm⟩
    cases mail with
    | none =>
      intro c hc
      obtain ⟨hca, m, hm', -⟩ := tookPoison_snoc.mp hc
      cases hca
      cases hm.symm.trans hm'
    | some m =>
      refine (handleMail_heeds hc hm).bind fun o h' ho => ?_
      by_cases hpoisoned : o = .poisoned
      · subst hpoisoned
        rw [if_pos rfl] at ho
        exact (makeSick_heeds ho).bind fun _ _ hease => hease
      · rw [if_neg hpoisoned] at ho
        have hgoes : Tame company
            (do consume company a n ((← pool).config.batchPolicy.fold sum o)) :=
          (Tame.of_meek (t := pool) ⟨rfl, fun _ => trivial⟩).bind fun _ => ih _
        cases o with
        | poisoned => exact absurd rfl hpoisoned
        | skipped | complete | error => exact hgoes h' ho

/-- What patrols is tame because batches are. -/
theorem Tame.of_patrols (hc : company.Civil) {t : Act σ α} (ht : Patrols company t) :
    Tame company t := by
  induction ht with
  | pure a => exact Tame.pure a
  | bind _ _ iht ihf => exact iht.bind ihf
  | access x hx =>
    have hmeek : x.meek := by cases x <;> first | rfl | cases hx
    exact Tame.of_meek ⟨hmeek, fun _ => trivial⟩
  | batch a n sum => exact consume_tame hc a n sum

/-! ## Routines -/

theorem act_tame (hc : company.Civil) (r : Routine σ) : Tame company (r.act company) := by
  cases r with
  | serve program =>
    exact (Tame.of_meek (interpret_meek hc program)).bind fun _ => Tame.pure _
  | slip a m =>
    refine (Tame.of_meek (t := pool) ⟨rfl, fun _ => trivial⟩).bind fun p => ?_
    split
    · exact Tame.of_meek ⟨rfl, fun _ => trivial⟩
    · exact Tame.pure _
  | drain | drainUnlocked | sweep => exact Tame.of_patrols hc (act_patrols rfl)

end Act

end ActorSystem
