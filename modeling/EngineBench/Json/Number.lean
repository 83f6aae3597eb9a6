-- Numbers of a JSON document. Whole numbers that fit a word are exact; every other number is a
-- double, computed with one division or multiplication by a power of ten.
import EngineBench.Number.Shortest

namespace EngineBench.Json

inductive Numeral where
  | natural (n : Nat)
  | negative (n : Int)
  | real (x : Float)

def wordLimit : Nat := UInt64.size

/-- The powers of ten from 10^0 to 10^308, each as the nearest double. -/
def powerOfTen (n : Nat) : Float := Float.ofScientific 1 false n

/-- `significand` times ten to the power `exponent`: the significand is rounded to a double, then
the product or quotient is. Steps of 10^308 keep the power within the doubles; a result beyond them
is no number. -/
def scaled (significand : Nat) (exponent : Int) : Option Float :=
  go ((-exponent).toNat / 308 + 1) (UInt64.ofNat significand).toFloat exponent
where
  go : Nat → Float → Int → Option Float
    | 0, f, _ => some f
    | steps + 1, f, e =>
      if e.natAbs ≤ 308 then
        if 0 ≤ e then
          let y := f * powerOfTen e.toNat
          if y.isInf then none else some y
        else some (f / powerOfTen e.natAbs)
      else if f == 0 then some f
      else if 0 ≤ e then none
      else go steps (f / powerOfTen 308) (e + 308)

/-- Takes digits into the significand as long as it fits a word. The digits that no longer fit are
counted, and their values are lost. -/
def takeDigits : Nat → List Char → Nat × Nat
  | sig, [] => (sig, 0)
  | sig, c :: s =>
    let next := sig * 10 + (c.toNat - 48)
    if next < wordLimit then
      let (sig', lost) := takeDigits next s
      (sig', lost)
    else (sig, s.length + 1)

/-- The value of the digits of an exponent, cut off where it could only overflow. -/
def exponentValue (s : List Char) : Nat := Number.digitsValue (s.take 400)

def signed (negative : Bool) (x : Float) : Float := if negative then -x else x

/-- The number with a significand and an exponent, if a double comes near to it. -/
def realNumber (negative : Bool) (sig : Nat) (e : Int) : Option Numeral :=
  (scaled sig e).map fun x => .real (signed negative x)

/-- The number whose digits fit a word, without a point and an exponent. -/
def plainNumber (negative : Bool) (sig : Nat) : Numeral :=
  if !negative then .natural sig
  else if 0 < sig && sig ≤ Nat.pow 2 63 then .negative (-(sig : Int))
  else .real (signed negative (UInt64.ofNat sig).toFloat)

def startsExponent : List Char → Bool
  | c :: _ => c == 'e' || c == 'E'
  | [] => false

/-- Whether an exponent is below zero, and the text after its sign. -/
def exponentSign : List Char → Bool × List Char
  | '-' :: s => (true, s)
  | '+' :: s => (false, s)
  | s => (false, s)

/-- Reads an exponent where one stands: the number with it, and the text after it. -/
def readExponent (negative : Bool) (sig : Nat) (e : Int) (rest : List Char) :
    Option (Option Numeral × List Char) :=
  if startsExponent rest then
    let (down, digits) := exponentSign rest.tail
    let ds := digits.takeWhile Char.isDigit
    if ds.isEmpty then none
    else
      let n : Int := exponentValue ds
      let e := if down then e - n else e + n
      let number := if sig = 0 then some (.real (signed negative 0)) else realNumber negative sig e
      some (number, digits.drop ds.length)
  else some (realNumber negative sig e, rest)

/-- Reads a number with its sign already taken: the number, if a double comes near to it, and the
text after it. -/
def readNumeral (negative : Bool) (s : List Char) : Option (Option Numeral × List Char) :=
  let whole := s.takeWhile Char.isDigit
  let rest := s.drop whole.length
  if whole.isEmpty || (whole.head? == some '0' && 1 < whole.length) then none
  else
    let (sig, lost) := takeDigits 0 whole
    match rest with
    | '.' :: tail =>
      let part := tail.takeWhile Char.isDigit
      if part.isEmpty then none
      else
        let (sig', lost') := takeDigits sig part
        readExponent negative sig' ((lost : Int) - (part.length - lost' : Nat))
          (tail.drop part.length)
    | _ =>
      if lost = 0 && !startsExponent rest then some (some (plainNumber negative sig), rest)
      else readExponent negative sig lost rest

def Numeral.text : Numeral → String
  | .natural n => toString n
  | .negative n => toString n
  | .real x => Number.jsonText x

end EngineBench.Json
