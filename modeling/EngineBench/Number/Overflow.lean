-- Sums and products of words that are too large for a word. A build of the program may check its
-- arithmetic, and stops at such a one; a build that does not goes on with what is left of it when
-- it has wrapped round.
namespace EngineBench

/-- What was computed when a result came out too large. -/
inductive Overflow where
  | addition
  | multiplication
  deriving DecidableEq, Repr

/-- The last words of a program that stops there. -/
def Overflow.message : Overflow → String
  | addition => "attempt to add with overflow"
  | multiplication => "attempt to multiply with overflow"

/-- Whether a build checks its arithmetic. -/
inductive Build where
  | checked
  | unchecked
  deriving DecidableEq, Repr

namespace Build

variable (b : Build)

/-- How a build goes on with a result that has wrapped round unless it `fits`. -/
def settle {α : Type} (o : Overflow) (fits : Prop) [Decidable fits] (wrapped : α) :
    Except Overflow α :=
  if b = checked ∧ ¬fits then .error o else .ok wrapped

def add (x y : UInt64) : Except Overflow UInt64 :=
  b.settle .addition (x.toNat + y.toNat < UInt64.size) (x + y)

/-- The sum of counters, which are words of half the width. -/
def addCounts (x y : UInt32) : Except Overflow UInt32 :=
  b.settle .addition (x.toNat + y.toNat < UInt32.size) (x + y)

def multiply (x y : UInt64) : Except Overflow UInt64 :=
  b.settle .multiplication (x.toNat * y.toNat < UInt64.size) (x * y)

/-- Adds words from left to right. -/
def sum (values : List UInt64) : Except Overflow UInt64 := values.foldlM b.add 0

def sumCounts (counts : List UInt32) : Except Overflow UInt32 := counts.foldlM b.addCounts 0

end Build

end EngineBench
