-- Programs that ask questions and go on with the answers. What a program asks can be told apart
-- from what its surroundings make of it: the same program runs against any of them, and a law about
-- a program is a law about all the answers that it may get.
namespace EngineBench

/-- A program that is finished, or asks and goes on with the answer. -/
inductive Dialogue (Q : Type) (A : Q → Type) (α : Type) where
  | done (a : α)
  | ask (q : Q) (next : A q → Dialogue Q A α)

namespace Dialogue

variable {Q : Type} {A : Q → Type} {α β σ : Type}

def bind : Dialogue Q A α → (α → Dialogue Q A β) → Dialogue Q A β
  | done a, f => f a
  | ask q next, f => ask q fun answer => (next answer).bind f

instance : Monad (Dialogue Q A) where
  pure := done
  bind := bind

/-- Asks one question and ends with the answer. -/
def question (q : Q) : Dialogue Q A (A q) := ask q done

/-- Runs a program against surroundings that answer from a state. -/
def run (respond : (q : Q) → StateM σ (A q)) : Dialogue Q A α → StateM σ α
  | done a => pure a
  | ask q next => do (next (← respond q)).run respond

theorem bind_done (m : Dialogue Q A α) : m.bind done = m := by
  induction m with
  | done a => rfl
  | ask q next ih => simp [bind, ih]

theorem bind_assoc {γ : Type} (m : Dialogue Q A α) (f : α → Dialogue Q A β)
    (g : β → Dialogue Q A γ) : (m.bind f).bind g = m.bind fun a => (f a).bind g := by
  induction m with
  | done a => rfl
  | ask q next ih => simp [bind, ih]

end Dialogue

end EngineBench
