import ActorSystem.Proofs.Crew.Answers
import ActorSystem.Proofs.Roles.Staff

/-!
# Players of a rally

A rally is a sequence of letters: a ball goes back and forth between two players, one hit more each
time, and after the last hit the referee gets a letter instead. Every letter but the first is what a
player makes of the letter before.

* `Rally.letter`: the letters of a rally, in order.
* `Rally.afterDispatch_ball`: what a player does with a ball.
-/

namespace ActorSystem

open Ensemble

/-! ## What a player does with a ball -/

namespace Player

variable (p : Player) (ctx : Context) {m : Message Value} {hits : UInt32}

theorem handle_last (hm : m.get? Ball = some ⟨hits⟩) (h : p.rally ≤ hits + 1) :
    behaviour.handle (.player p) ctx m =
      .ask (.log (rallyOver p.name (hits + 1))) fun _ => .ask (.post p.referee
          ⟨some ctx.address, .user (.gameOver ⟨hits + 1, p.name⟩)⟩) fun (sent : Except Error Unit) =>
        .done ⟨.player p, .returned (if sent.isOk then .complete else .error)⟩ := by
  simp only [behaviour, Part.handle, handle, hm, h, if_true]
  refine congrArg (Dialogue.ask _) (funext fun _ => congrArg (Dialogue.ask _)
    (funext fun (sent : Except Error Unit) => ?_))
  cases sent <;> rfl

theorem handle_hit (hm : m.get? Ball = some ⟨hits⟩) (h : ¬ p.rally ≤ hits + 1) {s : Address}
    (hs : m.source = some s) :
    behaviour.handle (.player p) ctx m =
      .ask (.post s ⟨some ctx.address, .user (.ball ⟨hits + 1⟩)⟩) fun (sent : Except Error Unit) =>
        .done ⟨.player p, .returned (if sent.isOk then .complete else .error)⟩ := by
  simp only [behaviour, Part.handle, handle, hm, h, if_false, Context.reply, hs]
  refine congrArg (Dialogue.ask _) (funext fun (sent : Except Error Unit) => ?_)
  cases sent <;> rfl

end Player

/-- A player at its place. -/
structure Side where
  actor : ActorRef
  box : BoxRef
  address : Address
  name : String

/-- Two players of one rally, the first of whom has a ball with so many hits. -/
structure Rally where
  first : Side
  second : Side
  referee : Address
  /-- The referee's mailbox. -/
  desk : BoxRef
  length : UInt32
  hits : UInt32

namespace Rally

variable (g : Rally)

/-! ## The letters -/

/-- Who has the ball after so many dispatches. -/
def side (k : ℕ) : Side := if k % 2 = 0 then g.first else g.second

/-- The hits with which the rally ends. -/
def last : ℕ := max (g.hits.toNat + 1) g.length.toNat

/-- The number of dispatches that it takes. -/
def total : ℕ := g.last - g.hits.toNat

/-- Who makes the last hit. -/
def striker : Side := if g.total % 2 = 1 then g.first else g.second

/-- The ball after so many dispatches, which comes from the other player. -/
def ball (k : ℕ) : Message Value :=
  ⟨some (g.side (k + 1)).address, .user (.ball ⟨.ofNat (g.hits.toNat + k)⟩)⟩

def gameOver : Message Value :=
  ⟨some g.striker.address, .user (.gameOver ⟨.ofNat g.last, g.striker.name⟩)⟩

def letter (k : ℕ) : Message Value := if k < g.total then g.ball k else g.gameOver

/-- Where the letter is sent to. -/
def target (k : ℕ) : Address := if k < g.total then (g.side k).address else g.referee

/-- The mailbox at this address. -/
def goal (k : ℕ) : BoxRef := if k < g.total then (g.side k).box else g.desk

def part (s : Side) : Part := .player ⟨s.name, g.length, g.referee⟩

theorem side_add_two (k : ℕ) : g.side (k + 2) = g.side k := by simp [side]

theorem total_pos : 0 < g.total := by
  rw [total, last]
  omega

variable {g} {k : ℕ}

theorem striker_eq (h : k + 1 = g.total) : g.striker = g.side k := by
  rw [striker, side, ← h]
  split <;> split <;> first | rfl | omega

/-- A hit is the last one if it makes the rally as long as agreed. -/
theorem length_le_iff (hh : g.hits.toNat + 1 < UInt32.size) (hk : k < g.total) :
    g.length ≤ UInt32.ofNat (g.hits.toNat + k) + 1 ↔ k + 1 = g.total := by
  have hlength := g.length.toNat_lt
  have hsize : UInt32.size = 4294967296 := rfl
  rw [total, last] at *
  have hsum : (UInt32.ofNat (g.hits.toNat + k) + 1).toNat = g.hits.toNat + k + 1 := by
    rw [← UInt32.ofNat_one, ← UInt32.ofNat_add, UInt32.toNat_ofNat']
    omega
  rw [UInt32.le_iff_toNat_le, hsum]
  omega

/-! ## A hit -/

variable {company : Company signature}

/-- What is left to do when the letter is sent, or not. -/
def back (g : Rally) (k : ℕ) (o : Outcome) : Act signature Outcome :=
  .ask (.setRole (g.side k).actor (g.part (g.side k))) fun _ => .done o

def posting (g : Rally) (k : ℕ) : Act signature Outcome :=
  Act.post (g.target (k + 1)) (g.letter (k + 1)) >>= fun sent =>
    g.back k (if sent.isOk then .complete else .error)

theorem posting_eq (g : Rally) (k : ℕ) :
    g.posting k = .ask (.resolve (g.target (k + 1))) fun (found : Option BoxRef) =>
      match found with
      | some b => .ask (.put b (g.letter (k + 1))) fun _ => g.back k .complete
      | none => .ask (.report (.unknownAddress (g.target (k + 1)))) fun _ => g.back k .error := by
  refine congrArg (Dialogue.ask _) (funext fun (found : Option BoxRef) => ?_)
  cases found <;> rfl

def overEvent (g : Rally) (k : ℕ) : Event :=
  Player.rallyOver (g.side k).name (.ofNat (g.hits.toNat + k) + 1)

/-- What a player does with the ball. -/
def striking (g : Rally) (k : ℕ) : Act signature Outcome :=
  if k + 1 = g.total then .ask (.report (g.overEvent k)) fun _ => g.posting k else g.posting k

theorem target_eq (hk : k < g.total) :
    g.target (k + 1) = if k + 1 = g.total then g.referee else (g.side (k + 1)).address := by
  rw [target]
  split <;> split <;> first | rfl | omega

theorem letter_eq (hk : k < g.total) :
    g.letter (k + 1) = if k + 1 = g.total
      then ⟨some (g.side k).address,
        .user (.gameOver ⟨.ofNat (g.hits.toNat + k) + 1, (g.side k).name⟩)⟩
      else ⟨some (g.side k).address, .user (.ball ⟨.ofNat (g.hits.toNat + k) + 1⟩)⟩ := by
  have hhits : UInt32.ofNat (g.hits.toNat + k) + 1 = UInt32.ofNat (g.hits.toNat + (k + 1)) := by
    rw [← UInt32.ofNat_one, ← UInt32.ofNat_add, Nat.add_assoc]
  rw [letter, hhits]
  by_cases hlast : k + 1 = g.total
  · have hsum : g.hits.toNat + (k + 1) = g.last := by
      rw [total, last] at *
      omega
    rw [if_neg (by omega), if_pos hlast, gameOver, striker_eq hlast, hsum]
  · rw [if_pos (by omega), if_neg hlast, ball, side_add_two]

theorem interpret_post {t : Address} {m : Message Value} {f : Except Error Unit → Ending signature}
    {h : Ending signature → Act signature Outcome} :
    (Act.interpret company (.ask (.post t m) fun (sent : Except Error Unit) => .done (f sent)) >>=
      h : Act signature Outcome) = Act.post t m >>= fun sent => h (f sent) :=
  Dialogue.bind_assoc (Act.post (σ := signature) t m) _ _

/-- Whatever comes of the letter, the player stays what it is. -/
theorem windUp_eq (g : Rally) (k : ℕ) (sent : Except Error Unit) :
    (.ask (.setRole (g.side k).actor (g.part (g.side k))) fun _ =>
      Act.windUp (g.side k).actor (.returned (if sent.isOk then .complete else .error)) :
        Act signature Outcome) = g.back k (if sent.isOk then .complete else .error) := by
  cases sent <;> rfl

/-- A player that gets the ball hits it. -/
theorem afterDispatch_ball (hb : company.behaviour = behaviour)
    (hh : g.hits.toNat + 1 < UInt32.size) (hk : k < g.total) {id : Option ActorId} {name : String} :
    (Act.afterDispatch company (g.side k).actor (some (g.part (g.side k),
      ⟨id, name, (g.side k).address⟩)) (g.ball k) >>= Act.conclude (g.side k).actor :
        Act signature Outcome) = g.striking k := by
  have hball : (g.ball k).get? Ball = some ⟨.ofNat (g.hits.toNat + k)⟩ := rfl
  have hlength := length_le_iff hh hk
  rw [Act.afterDispatch_conclude, hb, striking, posting, target_eq hk, letter_eq hk]
  by_cases hlast : k + 1 = g.total
  · have hhandle := Player.handle_last ⟨(g.side k).name, g.length, g.referee⟩
      ⟨id, name, (g.side k).address⟩ hball (hlength.mpr hlast)
    rw [if_pos hlast, if_pos hlast, if_pos hlast, part, hhandle]
    refine congrArg (Dialogue.ask _) (funext fun _ => interpret_post.trans ?_)
    exact congrArg _ (funext fun sent => windUp_eq g k sent)
  · have hhandle := Player.handle_hit ⟨(g.side k).name, g.length, g.referee⟩
      ⟨id, name, (g.side k).address⟩ hball (fun hle => hlast (hlength.mp hle)) rfl
    rw [if_neg hlast, if_neg hlast, if_neg hlast, part, hhandle]
    refine interpret_post.trans ?_
    exact congrArg _ (funext fun sent => windUp_eq g k sent)

end Rally

end ActorSystem
