/-!
# Dialogues

A dialogue is a tree: each node puts a question, each branch is one of its answers, and at the
leaves is what it all came to. The questions are a parameter, and with them who gives the
answers; a dialogue may be held by itself or a question at a time, with others in between. Every
branch is finite.

* `bind_assoc`, `bind_done`: dialogues form a monad.
* `All`: what is true of every question that may come up; `all_bind` puts two parts together.
-/

namespace ActorSystem

inductive Dialogue {Q : Type} (Answer : Q → Type) (α : Type) where
  | done (a : α)
  | ask (q : Q) (next : Answer q → Dialogue Answer α)

namespace Dialogue

variable {Q : Type} {Answer : Q → Type} {α β γ : Type}

def bind : Dialogue Answer α → (α → Dialogue Answer β) → Dialogue Answer β
  | done a, f => f a
  | ask q next, f => ask q fun x => (next x).bind f

instance : Monad (Dialogue Answer) where
  pure := done
  bind := bind

theorem bind_done (d : Dialogue Answer α) : d.bind done = d := by
  induction d with
  | done a => rfl
  | ask q next ih => simp [bind, ih]

theorem bind_assoc (d : Dialogue Answer α) (f : α → Dialogue Answer β)
    (g : β → Dialogue Answer γ) : (d.bind f).bind g = d.bind fun a => (f a).bind g := by
  induction d with
  | done a => rfl
  | ask q next ih => simp [bind, ih]

/-! ## What may be asked -/

/-- Every question that may come up, whatever the answers, is a `P`. -/
def All (P : Q → Prop) : Dialogue Answer α → Prop
  | done _ => True
  | ask q next => P q ∧ ∀ x, (next x).All P

variable {P P' : Q → Prop}

@[simp] theorem all_pure (a : α) : All P (pure a : Dialogue Answer α) := trivial

theorem all_bind {d : Dialogue Answer α} {f : α → Dialogue Answer β} (hd : d.All P)
    (hf : ∀ a, (f a).All P) : (d >>= f).All P := by
  induction d with
  | done a => exact hf a
  | ask q next ih => exact ⟨hd.1, fun x => ih x (hd.2 x)⟩

theorem All.mono {d : Dialogue Answer α} (h : ∀ q, P q → P' q) (hd : d.All P) : d.All P' := by
  induction d with
  | done a => trivial
  | ask q next ih => exact ⟨h q hd.1, fun x => ih x (hd.2 x)⟩

end Dialogue

end ActorSystem
