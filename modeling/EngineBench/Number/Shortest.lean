-- The shortest decimal that reads back as a given double, and two ways to write it: one
-- with every place spelled out, and one that turns to an exponent for the very large and the
-- very small.
import EngineBench.Number.Binary

namespace EngineBench.Number

/-- The decimal number digits · 10^exponent. -/
structure Decimal where
  digits : Nat
  exponent : Int
  deriving DecidableEq, Repr

namespace Decimal

/-- The interval of numbers that round to m · 2^q, in units of 2^(q-2): its two ends and whether
they belong to it. Below a power of two the neighbour is only half as far. -/
def roundingInterval (m : Nat) (q : Int) : Nat × Nat × Bool :=
  let low := if m = Nat.pow 2 52 ∧ -1074 < q then 4 * m - 1 else 4 * m - 2
  (low, 4 * m + 2, m % 2 = 0)

/-- The point of the grid of step 10^e, on or next to 4m · 2^(q-2), that lies in the rounding
interval; of two such points the nearer, and of two equally near the even one. -/
def onGrid (m : Nat) (q : Int) (e : Int) : Option Nat :=
  -- the common unit: value = n/d with every quantity scaled to the grid
  let up := (if 0 ≤ q - 2 then Nat.pow 2 (q - 2).toNat else 1) *
    (if e < 0 then Nat.pow 10 (-e).toNat else 1)
  let down := (if q - 2 < 0 then Nat.pow 2 (2 - q).toNat else 1) *
    (if 0 ≤ e then Nat.pow 10 e.toNat else 1)
  let (low, high, closed) := roundingInterval m q
  let inside (k : Nat) : Bool :=
    let x := k * down
    if closed then low * up ≤ x && x ≤ high * up else low * up < x && x < high * up
  let value := 4 * m * up
  let k := value / down
  let below := inside k && k != 0
  let above := inside (k + 1)
  if below && above then
    let a := value - k * down
    let b := (k + 1) * down - value
    if a < b then some k else if b < a then some (k + 1)
    else if k % 2 = 0 then some k else some (k + 1)
  else if below then some k
  else if above then some (k + 1)
  else none

/-- Tries the grids from step 10^e down, one digit more each time. -/
def search (m : Nat) (q : Int) : Nat → Int → Decimal
  | 0, e => ⟨(onGrid m q e).getD 0, e⟩
  | n + 1, e =>
    match onGrid m q e with
    | some k => ⟨k, e⟩
    | none => search m q n (e - 1)

/-- Moves the zeros at the end of the digits into the exponent. -/
def dropZeros : Nat → Decimal → Decimal
  | 0, d => d
  | n + 1, d => if d.digits % 10 = 0 then dropZeros n ⟨d.digits / 10, d.exponent + 1⟩ else d

/-- The number of decimal digits of the whole part of m · 2^q, less one; negative below one.
The estimate may be one too large, which costs one grid without a point. -/
def magnitude (m : Nat) (q : Int) : Int :=
  if 0 ≤ q then (Number.digits (m * Nat.pow 2 q.toNat)).length
  else
    let whole := m / Nat.pow 2 (-q).toNat
    if whole = 0 then
      -- the first place after the point that is not zero
      1 - ((Number.digits (Nat.pow 2 (-q).toNat / m)).length : Int) + 1
    else (Number.digits whole).length

/-- The shortest decimal that reads back as m · 2^q, with m not zero. -/
def shortest (m : Nat) (q : Int) : Decimal :=
  let d := search m q 25 (magnitude m q + 1)
  dropZeros 25 d

/-- The digits of a decimal with the point in place and no exponent. -/
def positional (d : Decimal) : List Char :=
  let ds := Number.digits d.digits
  if 0 ≤ d.exponent then ds ++ List.replicate d.exponent.toNat '0'
  else
    let places := (-d.exponent).toNat
    if places < ds.length then ds.take (ds.length - places) ++ '.' :: ds.drop (ds.length - places)
    else "0.".toList ++ List.replicate (places - ds.length) '0' ++ ds

end Decimal

/-- The shortest text with every place spelled out and at least one place after the point. -/
def plainText (x : Float) : String :=
  match Binary.ofFloat x with
  | .nan => "NaN"
  | .infinite neg => if neg then "-inf" else "inf"
  | .finite neg m q =>
    let body := if m = 0 then ['0'] else (Decimal.shortest m q).positional
    let body := if body.contains '.' then body else body ++ ".0".toList
    String.ofList (if neg then '-' :: body else body)

/-- The shortest text of a finite double in a JSON document: positional from 0.00001 to below
10^16, and with an exponent elsewhere. -/
def jsonText (x : Float) : String :=
  match Binary.ofFloat x with
  | .nan => "null"
  | .infinite _ => "null"
  | .finite neg m q =>
    let body :=
      if m = 0 then "0.0".toList
      else
        let d := Decimal.shortest m q
        let ds := Number.digits d.digits
        let point := (ds.length : Int) + d.exponent
        if -5 < point ∧ point ≤ 16 then
          let text := d.positional
          if text.contains '.' then text else text ++ ".0".toList
        else
          let e := (toString (point - 1)).toList
          match ds with
          | [c] => c :: 'e' :: e
          | c :: rest => c :: '.' :: rest ++ 'e' :: e
          | [] => []
    String.ofList (if neg then '-' :: body else body)

end EngineBench.Number
