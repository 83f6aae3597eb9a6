-- A double as an exact number. Every text of a double in this library is computed from the
-- mantissa and the exponent read off its bits.
namespace EngineBench.Number

/-- A double taken apart: `finite neg m q` is the number m · 2^q, negated if `neg`. -/
inductive Binary where
  | nan
  | infinite (neg : Bool)
  | finite (neg : Bool) (m : Nat) (q : Int)
  deriving DecidableEq, Repr

namespace Binary

def ofBits (bits : UInt64) : Binary :=
  let n := bits.toNat
  let neg := decide (Nat.pow 2 63 ≤ n)
  let e := n / Nat.pow 2 52 % 2048
  let f := n % Nat.pow 2 52
  if e = 2047 then (if f = 0 then .infinite neg else .nan)
  else if e = 0 then .finite neg f (-1074)
  else .finite neg (f + Nat.pow 2 52) (Int.ofNat e - 1075)

def ofFloat (x : Float) : Binary := ofBits x.toBits

end Binary

/-- The place of a double in the total order that runs from the negative NaNs over -0 and +0 to
the positive NaNs. -/
def orderKey (x : Float) : Nat :=
  let n := x.toBits.toNat
  if n < Nat.pow 2 63 then n + Nat.pow 2 63 else Nat.pow 2 64 - 1 - n

/-- The nearest integer to `num / den`, a tie going to the even neighbour. -/
def roundDiv (num den : Nat) : Nat :=
  let d := num / den
  let r := 2 * (num % den)
  if r < den then d else if den < r then d + 1 else if d % 2 = 0 then d else d + 1

/-- A decimal digit; only values below ten are used. -/
def digit (n : Nat) : Char := Char.ofNat (48 + n)

/-- The decimal digits of a number, most significant first, with no leading zero. -/
def digits (n : Nat) : List Char := (toString n).toList

/-- The value of a text of decimal digits. -/
def digitsValue (s : List Char) : Nat := s.foldl (fun n c => n * 10 + (c.toNat - 48)) 0

end EngineBench.Number
