-- Rules for what a scripted part of a host does: the first rule that applies counts, and some
-- rules can be used only so many times.
namespace EngineBench.Host

structure Rule (ρ : Type) where
  content : ρ
  times : Option Nat
  used : Nat

namespace Rule

variable {ρ : Type}

def isLeft (r : Rule ρ) : Bool :=
  match r.times with
  | some n => r.used < n
  | none => true

/-- Uses the first rule that applies and is left. -/
def use (applies : ρ → Bool) : List (Rule ρ) → Option ρ × List (Rule ρ)
  | [] => (none, [])
  | r :: rest =>
    if applies r.content && r.isLeft then (some r.content, { r with used := r.used + 1 } :: rest)
    else
      let (found, rest) := use applies rest
      (found, r :: rest)

end Rule

end EngineBench.Host
