import ActorSystem.Proofs.Crew.Reserved
import ActorSystem.Proofs.Mute

/-!
# Newcomers

A registration reads the counter and asks for a mailbox at the number that it has read. Other
registrations wait meanwhile, but actors that take other IDs do not. Such an actor has its new
address before the number is reserved: if it is the very number that the registration has read, or
if it moves there after that, then the registration fails, and the address is in use. The same
happens at the end of the lower half, where the counter runs into the addresses of names. There is
no other way for it to fail but a full table, as long as the addresses below are those of actors.

* `Contested`: an actor was on its way to the number, or has gone there since.
* `KeptFor.newcomer`: whoever has the number else is the new actor.
* `registration_fails_iff`: what a registration comes to.
* `overtaken_registration`: it does fail.
-/

namespace ActorSystem

variable {σ : Signature} {config : Config} {company : Company σ} {c c' d p q : Crew σ}
variable {i : ThreadId} {x : Address}

/-! ## Who else wants a number -/

/-- A move to `x` was under way in crew `p`, or one was made on the way from there to crew `q`. -/
def Contested (p q : Crew σ) (x : Address) : Prop :=
  (∃ k, Pending (p.trail k) x) ∨ ∃ e ∈ q.past.drop p.past.length, e.2.MovesTo x

theorem contested_of_pending {us : List (ThreadId × Visit σ)} (hp : q.past = p.past ++ us)
    {k : ThreadId} (hk : Pending (q.trail k) x) : Contested p q x := by
  have htrail : q.trail k =
      p.trail k ++ us.filterMap fun u => if u.1 = k then some u.2 else none := by
    rw [Crew.trail, hp, List.filterMap_append]
    rfl
  rw [htrail] at hk
  rcases hk.of_append with hk | ⟨u, hu, hmoves⟩
  · exact .inl ⟨k, hk⟩
  · right
    obtain ⟨⟨l, v⟩, hv, hsome⟩ := List.mem_filterMap.mp hu
    dsimp only at hsome
    split at hsome
    · cases hsome
      refine ⟨(l, u), ?_, hmoves⟩
      rw [hp, List.drop_left]
      exact hv
    · cases hsome

theorem contested_of_moves {us : List (ThreadId × Visit σ)} (hp : q.past = p.past ++ us)
    {e : ThreadId × Visit σ} (he : e ∈ us) (hmoves : e.2.MovesTo x) : Contested p q x := by
  right
  refine ⟨e, ?_, hmoves⟩
  rw [hp, List.drop_left]
  exact he

theorem Contested.mono {us vs : List (ThreadId × Visit σ)} (h : Contested p c x)
    (hp : c.past = p.past ++ us) (hmore : c'.past = c.past ++ vs) : Contested p c' x := by
  rcases h with hpending | ⟨e, he, hmoves⟩
  · exact .inl hpending
  · rw [hp, List.drop_left] at he
    rw [hp, List.append_assoc] at hmore
    exact contested_of_moves hmore (List.mem_append_left _ he) hmoves

/-! ## The time at the desk -/

namespace Desk

def visit (t : Desk) (v : Visit σ) : Desk := t.after v.atom (v.atom.answer v.world)

theorem visit_ne_away {t : Desk} {v : Visit σ} (hv : v.atom ≠ .lock .leaveWrite) (ht : t ≠ .away) :
    t.visit v ≠ .away := by
  obtain ⟨w, x⟩ := v
  unfold visit
  generalize x.answer w = y
  cases x with
  | lock op => cases op <;> first | exact absurd rfl hv | exact ht | exact nofun
  | tableSize => cases t <;> first | exact ht | exact nofun
  | createMailbox c => cases t <;> cases y <;> first | exact ht | exact nofun
  | enroll z => cases t <;> first | exact ht | exact nofun
  | _ => exact ht

theorem foldl_ne_away {t : Desk} {vs : List (Visit σ)} (ht : t ≠ .away)
    (hvs : ∀ v ∈ vs, v.atom ≠ .lock .leaveWrite) : vs.foldl visit t ≠ .away := by
  induction vs generalizing t with
  | nil => exact ht
  | cons v vs ih =>
    apply ih (visit_ne_away (hvs v List.mem_cons_self) ht)
    intro u hu
    exact hvs u (List.mem_cons_of_mem v hu)

end Desk

namespace Crew

/-- Where a thread is at the desk shows in its trail: between two jobs it is away. -/
def DeskBound (c : Crew σ) : Prop := ∀ k, (c.stage k).desk = (c.trail k).foldl Desk.visit .away

theorem DeskBound.step (h : c.DeskBound) (hchange : Orderly.Change config c c') :
    c'.DeskBound := by
  intro k
  rcases hchange.between_or_visited with ⟨i, t, hi, ht, -, -, hp, hs⟩ | ⟨i, x, -, -, -, hp, hs⟩
  · rw [hs, trail_of_past hp, ← h k]
    by_cases hki : k = i
    · rw [hki, assign_self, hi.desk, ht.desk]
    · rw [assign_of_ne _ _ hki]
  · rw [hs, trail_snoc hp]
    by_cases hki : k = i
    · rw [hki, assign_self, if_pos rfl, List.foldl_append, ← h i]
      rfl
    · rw [assign_of_ne _ _ hki, if_neg hki]
      exact h k

end Crew

theorem Sane.deskBound (hc : company.Civil) {env : σ.Env} {ms : List (Move σ)}
    (hplay : (Crew.empty config env).play company ms = some c) : c.DeskBound := by
  apply ((Sane.empty config env).induction hc _ _ hplay).2
  · intro c c' _ hchange h
    exact h.step hchange
  · intro k
    rfl

/-! ## Who has a number -/

/-- Why somebody with the mailbox `b` has the number `id`, or is there: it is a name's, or has been
contested since crew `p`, or thread `i` has enrolled him since then. -/
def Accounted (p : Crew σ) (i : ThreadId) (id : ActorId) (b : BoxRef) (d : Crew σ) : Prop :=
  id.address.isNamed ∨ Contested p d id.address ∨
    ∃ v, (i, v) ∈ d.past.drop p.past.length ∧ ∃ y, v.atom = .enroll y ∧ y.box = b

theorem Accounted.mono {id : ActorId} {b : BoxRef} {us vs : List (ThreadId × Visit σ)}
    (h : Accounted p i id b c) (hp : c.past = p.past ++ us) (hmore : c'.past = c.past ++ vs) :
    Accounted p i id b c' := by
  rcases h with hnamed | hcontested | ⟨v, hv, henroll⟩
  · exact .inl hnamed
  · exact .inr (.inl (hcontested.mono hp hmore))
  · refine .inr (.inr ⟨v, ?_, henroll⟩)
    rw [hp, List.drop_left] at hv
    rw [hmore, hp, List.append_assoc, List.drop_left]
    exact List.mem_append_left _ hv

/-- Whoever has the number `id` or a mailbox there is accounted for. -/
structure KeptFor (p : Crew σ) (i : ThreadId) (id : ActorId) (d : Crew σ) : Prop where
  later : ∃ us, d.past = p.past ++ us
  owner : ∀ a b, d.world.pool.boxOf a = some b →
    d.world.pool.office.boxAt id.address = some b ∨ d.world.pool.idOf a = some id →
      Accounted p i id b d

namespace KeptFor

variable {id : ActorId}

/-- When the counter stands at the number. -/
theorem start (h : Reserved p) (hid : p.world.pool.nextId = id.raw) : KeptFor p i id p where
  later := ⟨[], (List.append_nil _).symm⟩
  owner a b hb hat := by
    have hcleared : p.Cleared id.address := by
      rcases hat with hat | hat
      · exact h.addresses a b hb _ hat
      · exact h.ids a id hat
    rcases hcleared with hnamed | hpassed | hpending
    · exact .inl hnamed
    · rw [hid] at hpassed
      exact absurd hpassed (UInt64.lt_irrefl _)
    · exact .inr (.inl (.inl hpending))

theorem settled (h : KeptFor p i id d) {d' : Crew σ} (hw : d'.world = d.world)
    (hp : d'.past = d.past) : KeptFor p i id d' := by
  obtain ⟨⟨us, hus⟩, howner⟩ := h
  refine ⟨⟨us, hp.trans hus⟩, ?_⟩
  rw [hw]
  unfold Accounted Contested
  rw [hp]
  exact howner

theorem visited (hsane : Sane config d) (hi : (d.stage i).desk ≠ .away) {d' : Crew σ}
    {k : ThreadId} {z : Atom σ} (hz : (d.stage k).Allows config.maxActors z)
    (hr : Official (d.trail k) ⟨d.world, z⟩) (hw : d'.world = z.effect d.world)
    (hp : d'.past = d.past ++ [(k, ⟨d.world, z⟩)]) (h : KeptFor p i id d) :
    KeptFor p i id d' := by
  obtain ⟨⟨us, hus⟩, howner⟩ := h
  have halter := Orderly.ne_alter hz
  have hus' : d'.past = p.past ++ (us ++ [(k, ⟨d.world, z⟩)]) := by
    rw [hp, hus, List.append_assoc]
  have hlast : (k, ⟨d.world, z⟩) ∈ us ++ [(k, (⟨d.world, z⟩ : Visit σ))] :=
    List.mem_append_right _ (List.mem_singleton_self _)
  refine ⟨⟨_, hus'⟩, fun a b hb hat => ?_⟩
  rw [hw] at hb hat
  rcases Housed.boxOf_of_effect hz hb with hold | ⟨ha, n, hdesk, y, rfl⟩
  · rcases hat with hat | hat
    · rcases Atom.boxAt_of_effect halter hat with hat | ⟨-, hmade⟩ | hmoves
      · exact (howner a b hold (.inl hat)).mono hus hp
      · -- nobody has a mailbox that is being made
        have hsome := hsane.housed.box a b hold
        rw [(createMailbox_ok hmade).1] at hsome
        cases hsome
      · exact .inr (.inl (contested_of_moves hus' hlast hmoves))
    · rcases Atom.idOf_of_effect halter hat with hat | rfl | ⟨y, rfl, hnew, -⟩
      · exact (howner a b hold (.inr hat)).mono hus hp
      · have hcontested := contested_of_pending hus (hr.renumbers a id rfl)
        exact .inr (.inl (hcontested.mono hus hp))
      · have hlt : a < d.world.pool.actors.size := Pool.boxOf_isSome_iff.mp (by rw [hold]; rfl)
        exact absurd hnew (Nat.ne_of_lt hlt)
  · rcases Atom.boxOf_enroll hb with ⟨-, rfl⟩ | ⟨hne, -⟩
    · -- only one thread writes the table
      obtain rfl : k = i := hsane.writers.single k i (by rw [hdesk]; nofun) hi
      refine .inr (.inr ⟨⟨d.world, .enroll y⟩, ?_, y, rfl, rfl⟩)
      rw [hus', List.drop_left]
      exact hlast
    · exact absurd ha hne

end KeptFor

/-- The number is kept for thread `i` until it gives the table back. -/
def KeptUntil (p : Crew σ) (i : ThreadId) (id : ActorId) (d : Crew σ) : Prop :=
  ∃ us, d.trail i = p.trail i ++ us ∧
    ((∃ u ∈ us, u.atom = .lock .leaveWrite) ∨ KeptFor p i id d)

theorem KeptUntil.step {id : ActorId} (hi : (p.trail i).foldl Desk.visit .away ≠ .away)
    (hsane : Sane config d) (hdesks : d.DeskBound) {d' : Crew σ}
    (hheeding : Heeding Official (fun _ => True) d') (hchange : Orderly.Change config d d')
    (h : KeptUntil p i id d) : KeptUntil p i id d' := by
  obtain ⟨us, hus, hstate⟩ := h
  rcases hchange.between_or_visited with ⟨k, t, -, -, -, hw, hp, -⟩ | ⟨k, z, hz, -, hw, hp, -⟩
  · exact ⟨us, by rwa [Crew.trail_of_past hp], hstate.imp_right fun hkept => hkept.settled hw hp⟩
  · have hgrown : ∃ more, d'.trail i = p.trail i ++ (us ++ more) := by
      rw [Crew.trail_snoc hp, hus]
      split
      · exact ⟨_, List.append_assoc _ _ _⟩
      · exact ⟨[], by rw [List.append_nil]⟩
    obtain ⟨more, hmore⟩ := hgrown
    refine ⟨us ++ more, hmore, ?_⟩
    by_cases hleft : ∃ u ∈ us, u.atom = .lock .leaveWrite
    · obtain ⟨u, hu, hleave⟩ := hleft
      exact .inl ⟨u, List.mem_append_left _ hu, hleave⟩
    · right
      have hdesk : (d.stage i).desk ≠ .away := by
        rw [hdesks i, hus, List.foldl_append]
        exact Desk.foldl_ne_away hi fun u hu hleave => hleft ⟨u, hu, hleave⟩
      have hkept := hstate.resolve_left hleft
      exact hkept.visited hsane hdesk hz (hheeding.last hp) hw hp

namespace KeptFor

variable {id : ActorId}

/-- As long as the thread writes the table. -/
theorem of_play (hc : company.Civil) {env : σ.Env} {ms : List (Move σ)}
    (hplay : (Crew.empty config env).play company ms = some p)
    (hi : (p.trail i).foldl Desk.visit .away ≠ .away) (hid : p.world.pool.nextId = id.raw)
    {ns : List (Move σ)} (hcall : p.play company ns = some d) {vs : List (Visit σ)}
    (htrail : d.trail i = p.trail i ++ vs) (hstays : ∀ v ∈ vs, v.atom ≠ .lock .leaveWrite) :
    KeptFor p i id d := by
  have hsane : Sane config p := (Sane.empty config env).play hc hplay
  obtain ⟨hheeding, hreserved⟩ := Sane.reserved hc hplay
  have hstart : KeptUntil p i id p := ⟨[], (List.append_nil _).symm, .inr (start hreserved hid)⟩
  have hall : Sane config d ∧ Heeding Official (fun _ => True) d ∧ d.DeskBound ∧
      KeptUntil p i id d := by
    refine Moves.play_induction (P := fun d => Sane config d ∧ Heeding Official (fun _ => True) d ∧
      d.DeskBound ∧ KeptUntil p i id d) ?_ ⟨hsane, hheeding, Sane.deskBound hc hplay, hstart⟩ hcall
    rintro d d' m ⟨hsane, hheeding, hdesks, huntil⟩ hm
    have hheeding' := hheeding.step (fun r h _ => Act.act_official hc r h) hm
    have hchange := hsane.orderly.change hm
    exact ⟨hsane.step hc hm, hheeding', hdesks.step hchange,
      huntil.step hi hsane hdesks hheeding' hchange⟩
  obtain ⟨-, -, -, us, hus, hstate⟩ := hall
  obtain rfl : us = vs := List.append_cancel_left (hus.symm.trans htrail)
  exact hstate.resolve_left fun ⟨u, hu, hleave⟩ => hstays u hu hleave

/-- In terms of the accesses of the thread. -/
theorem newcomer (h : KeptFor p i id d) {vs : List (Visit σ)}
    (htrail : d.trail i = p.trail i ++ vs) {a : ActorRef} {b : BoxRef}
    (hb : d.world.pool.boxOf a = some b)
    (hat : d.world.pool.office.boxAt id.address = some b ∨ d.world.pool.idOf a = some id)
    (hfree : ¬id.address.isNamed ∧ ¬Contested p d id.address) :
    ∃ v ∈ vs, ∃ y, v.atom = .enroll y ∧ y.box = b := by
  obtain ⟨us, hus⟩ := h.later
  rcases h.owner a b hb hat with hnamed | hcontested | ⟨v, hv, henroll⟩
  · exact absurd hnamed hfree.1
  · exact absurd hcontested hfree.2
  · rw [hus, List.drop_left] at hv
    refine ⟨v, ?_, henroll⟩
    rw [Crew.trail, hus, List.filterMap_append] at htrail
    rw [← List.append_cancel_left htrail]
    exact List.mem_filterMap.mpr ⟨(i, v), hv, if_pos rfl⟩

end KeptFor

/-! ## A registration -/

theorem createMailbox_eq_error_iff {w : World σ} {e : Error} :
    (Atom.createMailbox x).answer w = .error e ↔
      w.pool.office.contains x ∧ e = .addressInUse x := by
  unfold Atom.answer Office.create
  dsimp only
  cases hcontains : w.pool.office.contains x with
  | true => exact ⟨fun h => ⟨rfl, (Except.error.inj h).symm⟩, fun h => h.2 ▸ rfl⟩
  | false => exact ⟨nofun, nofun⟩

/-- The accesses enroll `y` and nobody else, and the table is not given back. -/
structure Enrolls (y : Actor σ) (vs : List (Visit σ)) : Prop where
  enrolled : ∃ v ∈ vs, v.atom = .enroll y
  only : ∀ v ∈ vs, ∀ z, v.atom = .enroll z → z = y
  stays : ∀ v ∈ vs, v.atom ≠ .lock .leaveWrite

/-- How a registration goes on that asks in `w` for a mailbox at the number `id`: by the accesses
after that one, and what it comes to. -/
inductive Registers (name : String) (role : σ.Role) (id : ActorId) (w : World σ) :
    List (Visit σ) → Except Error ActorId → Prop
  | refused {e : Error} {vs : List (Visit σ)}
    (he : (Atom.createMailbox id.address).answer w = .error e) :
    Registers name role id w vs (.error e)
  | granted {b : BoxRef} {vs : List (Visit σ)} {u : World σ}
    (hb : (Atom.createMailbox id.address).answer w = .ok b)
    (hvs : Enrolls { id := some id, name, box := b, role }
      (⟨w, .createMailbox id.address⟩ :: vs)) :
    Registers name role id w (vs ++ [⟨u, .lock .leaveWrite⟩]) (.ok id)

/-- A registration that asks for a mailbox fails if the address is in use, and never else. -/
theorem Registers.refused_iff {name : String} {role : σ.Role} {id : ActorId} {w : World σ}
    {vs : List (Visit σ)} {r : Except Error ActorId} (h : Registers name role id w vs r) :
    r = .error (.addressInUse id.address) ↔ w.pool.office.contains id.address := by
  cases h with
  | refused he =>
    obtain ⟨hcontains, rfl⟩ := createMailbox_eq_error_iff.mp he
    exact ⟨fun _ => hcontains, fun _ => rfl⟩
  | granted hb hvs =>
    refine ⟨nofun, fun hcontains => ?_⟩
    rw [createMailbox_eq_error_iff.mpr ⟨hcontains, rfl⟩] at hb
    cases hb

/-- What a registration has done, in the order of its accesses. -/
theorem Act.came_register {name : String} {role : σ.Role} {vs : List (Visit σ)}
    {r : Except Error ActorId} (hcame : (register name role).Came vs r) :
    ∃ w₁ w₂ w₃ w₄ rest, vs = [⟨w₁, .lock .claim⟩, ⟨w₂, .lock .awaitReaders⟩, ⟨w₃, .look⟩,
        ⟨w₄, .tableSize⟩] ++ rest ∧
      (r = .error (.tableFull w₃.pool.config.maxActors) ∨ ∃ w w' rest' id,
        rest = ⟨w, .nextId⟩ :: ⟨w', .createMailbox id.address⟩ :: rest' ∧
          w.pool.nextId = id.raw ∧ Registers name role id w' rest' r) := by
  obtain ⟨w₁, _, rfl, w₂, _, rfl, w₃, _, rfl, w₄, rest, rfl, hcame⟩ := hcame
  refine ⟨w₁, w₂, w₃, w₄, rest, rfl, ?_⟩
  change Came (if w₃.pool.config.maxActors ≤ w₄.pool.table.length then _ else _) rest r at hcame
  split at hcame
  · obtain ⟨-, _, -, -, _, -, -, rfl⟩ := hcame
    exact .inl rfl
  obtain ⟨w, _, rfl, w', rest', rfl, hcame⟩ := hcame
  refine .inr ⟨w, w', rest', ⟨(Atom.nextId : Atom σ).answer w⟩, rfl, rfl, ?_⟩
  generalize hmade : (Atom.createMailbox _).answer w' = made at hcame
  cases made with
  | error e =>
    obtain ⟨_, _, rfl, _, _, rfl, rfl, rfl⟩ := hcame
    exact .refused hmade
  | ok b =>
    obtain ⟨u₁, _, rfl, u₂, _, rfl, u₃, _, rfl, u₄, _, rfl, u₅, _, rfl, rfl, rfl⟩ := hcame
    refine @Registers.granted _ _ _ _ _ b [⟨u₁, .report _⟩, ⟨u₂, .reserve _⟩, ⟨u₃, .report _⟩,
      ⟨u₄, .enroll _⟩] u₅ hmade ?_
    constructor
    · exact ⟨⟨u₄, .enroll _⟩, by simp, rfl⟩
    · simp
    · simp

namespace Crew

/-- On the way from `c` to `d` thread `i` has read the number `id` off the counter, by the step that
led to crew `p`, and in crew `q` it has asked for a mailbox there. -/
structure Asks (company : Company σ) (c d : Crew σ) (i : ThreadId) (id : ActorId) (p q : Crew σ) :
    Prop where
  counter : p.world.pool.nextId = id.raw
  read : ∃ o, Passes company c d i ⟨o.world, .nextId⟩ o p
  waited : ∃ ns, p.play company ns = some q
  asked : ∃ q', Passes company c d i ⟨q.world, .createMailbox id.address⟩ q q'

theorem Passes.earlier {v : Visit σ} {c₁ c₂ : Crew σ} {ns : List (Move σ)}
    (hplay : c.play company ns = some p) (h : Passes company p d i v c₁ c₂) :
    Passes company c d i v c₁ c₂ := by
  obtain ⟨⟨ns₁, h₁⟩, ⟨ns₂, h₂⟩, honward, hworld, heffect, hpast⟩ := h
  exact ⟨⟨ns ++ ns₁, Moves.play_trans hplay h₁⟩, ⟨ns ++ ns₂, Moves.play_trans hplay h₂⟩, honward,
    hworld, heffect, hpast⟩

/-- A registration that finds room reads the counter and asks for a mailbox, at the desk. -/
theorem asks_of_register (hc : company.Civil) {env : σ.Env} {ms call : List (Move σ)}
    (hplay : (Crew.empty config env).play company ms = some c)
    (hcall : c.play company call = some d) {name : String} {role : σ.Role}
    {vs : List (Visit σ)} {r : Except Error ActorId} (htrail : d.trail i = c.trail i ++ vs)
    (hcame : (Act.register name role).Came vs r) :
    r = .error (.tableFull config.maxActors) ∨ ∃ p q id rest, Asks company c d i id p q ∧
      (p.trail i).foldl Desk.visit .away ≠ .away ∧ q.trail i = p.trail i ∧
      d.trail i = p.trail i ++ ⟨q.world, .createMailbox id.address⟩ :: rest ∧
      (∀ v ∈ ⟨q.world, .createMailbox id.address⟩ :: rest, v ∈ vs) ∧
      Registers name role id q.world rest r := by
  obtain ⟨w₁, w₂, w₃, w₄, _, rfl, rfl | ⟨w, w', rest, id, rfl, hid, hend⟩⟩ :=
    Act.came_register hcame
  · left
    obtain ⟨o, p, hlook⟩ := passes_of_trail (v := ⟨w₃, .look⟩) hcall htrail (by simp)
    obtain ⟨ns, ho⟩ := hlook.before
    have hsane : Sane config o := ((Sane.empty config env).play hc hplay).play hc ho
    have hworld : o.world = w₃ := hlook.world
    rw [← hworld, hsane.orderly.settings]
  right
  obtain ⟨o, p, hread, ho⟩ := passes_of_split hcall htrail
  have hp : p.trail i = o.trail i ++ [⟨w, .nextId⟩] := by rw [trail_snoc hread.past, if_pos rfl]
  have hrest : d.trail i = p.trail i ++ ([] ++ ⟨w', .createMailbox id.address⟩ :: rest) := by
    rw [hp, ho, htrail]
    simp
  obtain ⟨ns, hreached⟩ := hread.reached
  obtain ⟨ns', honward⟩ := hread.onward
  obtain ⟨q, q', hasked, hq⟩ := passes_of_split honward hrest
  rw [List.append_nil] at hq
  obtain ⟨ns'', hwaited⟩ := hasked.before
  have hworld : q.world = w' := hasked.world
  refine ⟨p, q, id, rest, ⟨?_, ⟨o, ?_⟩, ⟨ns'', hwaited⟩, q', ?_⟩, ?_, hq, ?_, ?_, ?_⟩
  · rw [hread.effect]
    exact hid
  · rw [hread.world]
    exact hread
  · rw [hworld]
    exact hasked.earlier hreached
  · rw [hp, ho]
    simp only [List.foldl_append, List.foldl_cons, List.foldl_nil]
    exact nofun
  · rw [hworld]
    exact hrest
  · rw [hworld]
    intro v hv
    exact List.mem_append_right _ (List.mem_cons_of_mem _ hv)
  · rw [hworld]
    exact hend

end Crew

/-- Every mailbox that is registered below the addresses of names belongs to an actor. -/
def Pool.Manned (p : Pool σ) : Prop := ∀ e ∈ p.office.entries, p.isSpare e.2 → e.1.isNamed

instance (p : Pool σ) : Decidable p.Manned :=
  inferInstanceAs (Decidable (∀ e ∈ p.office.entries, p.isSpare e.2 → e.1.isNamed))

namespace KeptFor

variable {id : ActorId}

/-- Among actors, an address that thread `i` finds in use at once has been contested. -/
theorem contested (h : KeptFor p i id q) (hq : q.trail i = p.trail i)
    (hmanned : q.world.pool.Manned) (hcontains : q.world.pool.office.contains id.address) :
    id.address.isNamed ∨ Contested p q id.address := by
  by_contra hfree
  rw [not_or] at hfree
  obtain ⟨b, hfind⟩ := Option.isSome_iff_exists.mp hcontains
  obtain ⟨hat, howned⟩ := Option.filter_eq_some_iff.mp hfind
  have hspare : ¬q.world.pool.isSpare b :=
    fun hspare => hfree.1 (hmanned (id.address, b) (Office.mem_of_lookup hat) hspare)
  obtain ⟨a, hb⟩ : ∃ a, q.world.pool.boxOf a = some b := by
    by_contra hnobody
    exact hspare (Pool.isSpare_iff.mpr ⟨howned, fun a ha => hnobody ⟨a, ha⟩⟩)
  have htrail : q.trail i = p.trail i ++ [] := by rw [hq, List.append_nil]
  obtain ⟨v, hv, -⟩ := h.newcomer htrail hb (.inl hat) hfree
  cases hv

/-- The only actor that has the number is the one that thread `i` has enrolled. -/
theorem boxOf_of_idOf {vs : List (Visit σ)} {y : Actor σ} (h : KeptFor p i id d)
    (htrail : d.trail i = p.trail i ++ vs)
    (honly : ∀ v ∈ vs, ∀ z, v.atom = .enroll z → z = y)
    (hfree : ¬id.address.isNamed ∧ ¬Contested p d id.address) {a : ActorRef}
    (ha : d.world.pool.idOf a = some id) : d.world.pool.boxOf a = some y.box := by
  have hborn : (d.world.pool.boxOf a).isSome := by
    rw [Pool.boxOf_isSome_iff]
    apply Nat.lt_of_not_le
    intro hle
    rw [Pool.idOf_eq_none_of_size_le hle] at ha
    cases ha
  obtain ⟨b, hb⟩ := Option.isSome_iff_exists.mp hborn
  obtain ⟨v, hv, z, henroll, hbox⟩ := h.newcomer htrail hb (.inr ha) hfree
  rw [hb, ← hbox, honly v hv z henroll]

end KeptFor

/-- Whatever others do meanwhile, a registration that finds room in the table reads a number off the
counter and asks for a mailbox there. As long as no mailboxes but those of actors are registered
below the addresses of names, it fails exactly if somebody is at that address, because the number is
one of the upper half, or because of a move that was under way when the number was read or has been
made since then. If it does not fail the new actor gets the number, and when the table is given back
nobody else has it, but for the same two reasons. -/
theorem registration_fails_iff (company : Company σ) (hc : company.Civil) (config : Config)
    (env : σ.Env) (ms call : List (Move σ)) (c d : Crew σ)
    (hplay : (Crew.empty config env).play company ms = some c)
    (hcall : c.play company call = some d) (i : ThreadId) (name : String) (role : σ.Role)
    (vs : List (Visit σ)) (r : Except Error ActorId) (htrail : d.trail i = c.trail i ++ vs)
    (hcame : (Act.register name role).Came vs r) :
    r = .error (.tableFull config.maxActors) ∨ ∃ p q id, Crew.Asks company c d i id p q ∧
      (q.world.pool.Manned →
        (r = .error (.addressInUse id.address) ↔ q.world.pool.office.contains id.address ∧
          (id.address.isNamed ∨ Contested p q id.address))) ∧
      (r ≠ .error (.addressInUse id.address) → r = .ok id ∧
        ∃ b e e', (∃ v ∈ vs, v.atom = .enroll { id := some id, name, box := b, role }) ∧
          Crew.Passes company c d i ⟨e.world, .lock .leaveWrite⟩ e e' ∧
          (id.address.isNamed = false → ¬Contested p e id.address →
            ∀ a, e.world.pool.idOf a = some id → e.world.pool.boxOf a = some b)) := by
  rcases Crew.asks_of_register hc hplay hcall htrail hcame with hfull |
    ⟨p, q, id, rest, hasks, hdesk, hq, hrest, hmem, hend⟩
  · exact .inl hfull
  obtain ⟨o, hread⟩ := hasks.read
  obtain ⟨ns, hp⟩ := hread.reached
  obtain ⟨ns', honward⟩ := hread.onward
  have hplay' : (Crew.empty config env).play company (ms ++ ns) = some p :=
    Moves.play_trans hplay hp
  have hkept : ∀ {ns e us}, p.play company ns = some e → e.trail i = p.trail i ++ us →
      (∀ u ∈ us, u.atom ≠ .lock .leaveWrite) → KeptFor p i id e :=
    fun hplay hus hstays => .of_play hc hplay' hdesk hasks.counter hplay hus hstays
  refine .inr ⟨p, q, id, hasks, fun hmanned => ?_, fun hr => ?_⟩
  · obtain ⟨ns, hwaited⟩ := hasks.waited
    have hsame : q.trail i = p.trail i ++ [] := by rw [hq, List.append_nil]
    have hkeptq := hkept hwaited hsame fun u hu => absurd hu List.not_mem_nil
    have hrefused : r = .error (.addressInUse id.address) ↔
        q.world.pool.office.contains id.address := hend.refused_iff
    rw [hrefused]
    exact ⟨fun hin => ⟨hin, hkeptq.contested hq hmanned hin⟩, And.left⟩
  · cases hend with
    | refused he => exact absurd (congrArg Except.error (createMailbox_eq_error_iff.mp he).2) hr
    | @granted b before u hb hvs =>
      have hlast : d.trail i =
          p.trail i ++ ((⟨q.world, .createMailbox id.address⟩ :: before) ++
            [⟨u, .lock .leaveWrite⟩]) := hrest
      obtain ⟨e, e', hleaves, he⟩ := Crew.passes_of_split honward hlast
      obtain ⟨ns', hplayed⟩ := hleaves.before
      have hworld : e.world = u := hleaves.world
      obtain ⟨v, hv, henroll⟩ := hvs.enrolled
      refine ⟨rfl, b, e, e', ⟨v, hmem v (List.mem_append_left _ hv), henroll⟩, ?_, ?_⟩
      · rw [hworld]
        exact hleaves.earlier hp
      · intro hlow hfree a ha
        have hkepte := hkept hplayed he hvs.stays
        exact hkepte.boxOf_of_idOf he hvs.only ⟨Bool.eq_false_iff.mp hlow, hfree⟩ ha

/-! ## Overtaken -/

namespace Mute

/-- A mute is registered, and a thread drains it that is to let it take another ID. When it has
moved the mailbox another thread begins to register a second mute. -/
def underWay (id : ActorId) : List (Move signature) :=
  [.begin 0 register] ++ List.replicate 12 (.go 0) ++ [.begin 1 (post ⟨1⟩ (.setId id))] ++
    List.replicate 3 (.go 1) ++ [.begin 1 (.drain 0)] ++ List.replicate 6 (.go 1)

def overtaken (id : ActorId) : List (Move signature) := underWay id ++ [.begin 0 register]

/-- Nobody disturbs the second registration, which makes `n` accesses and comes to `r`. -/
structure Undisturbed (ms : List (Move signature)) (n : Nat) (r : Except Error ActorId)
    (c d : Crew signature) (vs : List (Visit signature)) : Prop where
  reached : (Crew.empty {} ()).play Mute.company ms = some c
  called : c.play Mute.company (List.replicate n (.go 0)) = some d
  trail : d.trail 0 = c.trail 0 ++ vs
  came : (Act.register "mute" ()).Came vs r

theorem exists_undisturbed {ms : List (Move signature)} {n : Nat} {r : Except Error ActorId}
    (hrun : ((Crew.empty {} ()).play Mute.company (ms ++ [.begin 0 register])).bind (fun c =>
      (c.play Mute.company (List.replicate n (.go 0))).map fun _ =>
        (((Act.register (σ := signature) "mute" ()).visits c.world).length,
          ((Act.register (σ := signature) "mute" ()).run c.world).1)) = some (n, r)) :
    ∃ c d vs, Undisturbed (ms ++ [.begin 0 register]) n r c d vs := by
  obtain ⟨c, hplay, hc⟩ := Option.bind_eq_some_iff.mp hrun
  obtain ⟨d, hcall, hd⟩ := Option.map_eq_some_iff.mp hc
  obtain ⟨hlength, hanswer⟩ := Prod.mk.inj hd
  have hrest : (Job.start Mute.company register).rest =
      Act.register "mute" () >>= fun _ => pure none := Dialogue.bind_assoc _ _ _
  have hcame := Act.came_run (Act.register "mute" ()) c.world
  rw [hanswer] at hcame
  refine ⟨c, d, _, hplay, hcall, ?_, hcame⟩
  apply Crew.trail_of_alone (Crew.jobs_of_begin hplay) hrest
  rw [hlength]
  exact hcall

end Mute

/-- The first mute is on its way to another number. -/
theorem beside_a_move_registers : ∃ c d vs,
    Mute.Undisturbed (Mute.overtaken ⟨5⟩) 11 (.ok ⟨2⟩) c d vs ∧
    ∃ p q, Crew.Asks Mute.company c d 0 ⟨2⟩ p q ∧
      ∃ b e e', (∃ v ∈ vs, v.atom = .enroll ⟨some ⟨2⟩, "mute", .idle, b, ()⟩) ∧
        Crew.Passes Mute.company c d 0 ⟨e.world, .lock .leaveWrite⟩ e e' ∧
        (¬Contested p e ⟨2⟩ →
          ∀ a, e.world.pool.idOf a = some ⟨2⟩ → e.world.pool.boxOf a = some b) := by
  obtain ⟨c, d, vs, hrun⟩ :=
    @Mute.exists_undisturbed (Mute.underWay ⟨5⟩) 11 (.ok ⟨2⟩) (by decide +kernel)
  refine ⟨c, d, vs, hrun, ?_⟩
  rcases registration_fails_iff Mute.company nofun {} () _ _ c d hrun.reached hrun.called 0 "mute"
    () vs _ hrun.trail hrun.came with hfull | ⟨p, q, id, hasks, -, hnew⟩
  · cases hfull
  · obtain ⟨hid, b, e, e', henroll, hleaves, hfree⟩ := hnew nofun
    cases hid
    exact ⟨p, q, hasks, b, e, e', henroll, hleaves, hfree (by decide)⟩

namespace Squatter

/-- An actor takes the last ID below the addresses of names, and somebody settles at the first
address that is a name's. -/
def atTheEnd : List (Routine signature) :=
  [.serve (.ask (.register ()) fun _ => .done ()), .slip 0 (.ofControl (.setId .last)), .drain 0,
    .serve (.ask (.call ⟨0x8000000000000000⟩) fun _ => .done ())]

end Squatter

/-- A registration that a mute overtakes on its way to the very number, and one at the end of the
lower half: all mailboxes below the addresses of names are those of actors at any time, there is
room in the table, and the address is in use. -/
theorem overtaken_registration :
    (∃ c d vs, Mute.Undisturbed (Mute.overtaken ⟨2⟩) 8 (.error (.addressInUse ⟨2⟩)) c d vs ∧
      ∀ n ∈ List.range 9, ∃ e, c.play Mute.company (List.replicate n (.go 0)) = some e ∧
        e.world.pool.Manned) ∧
    ((Routine.all Squatter.company Squatter.atTheEnd).run (.empty {} ())).2.pool.Manned ∧
    ((Act.register "squatter" ()).run
      ((Routine.all Squatter.company Squatter.atTheEnd).run (.empty {} ())).2).1 =
        .error (.addressInUse ⟨0x8000000000000000⟩) := by
  refine ⟨?_, by decide +kernel, by decide +kernel⟩
  obtain ⟨c, d, vs, hrun⟩ :=
    @Mute.exists_undisturbed (Mute.underWay ⟨2⟩) 8 (.error (.addressInUse ⟨2⟩))
      (by decide +kernel)
  refine ⟨c, d, vs, hrun, fun n hn => ?_⟩
  have hmanned : ((Crew.empty {} ()).play Mute.company (Mute.overtaken ⟨2⟩)).all fun c =>
      (List.range 9).all fun n => (c.play Mute.company (List.replicate n (.go 0))).any
        (·.world.pool.Manned) := by
    decide +kernel
  have hreached : (Crew.empty {} ()).play Mute.company (Mute.overtaken ⟨2⟩) = some c := hrun.reached
  rw [hreached, Option.all_some, List.all_eq_true] at hmanned
  obtain ⟨e, he, hend⟩ := (Option.any_eq_true _ _).mp (hmanned n hn)
  exact ⟨e, he, of_decide_eq_true hend⟩

end ActorSystem
