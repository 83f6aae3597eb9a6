-- Doubles with a fixed number of decimal places, as the report shows them.
import EngineBench.Number.Binary

namespace EngineBench.Number

/-- How a column shows its numbers: the places after the point, the least width, to which the
text is filled with blanks on the left, and whether a number that is not negative has a plus. -/
structure FixedFormat where
  places : Nat
  width : Nat
  plus : Bool
  deriving DecidableEq, Repr

namespace FixedFormat

/-- The unsigned text of m · 2^q with `places` decimals; a tie goes to the even digit. -/
def unsigned (places m : Nat) (q : Int) : List Char :=
  let scaled :=
    if 0 ≤ q then m * Nat.pow 2 q.toNat * Nat.pow 10 places
    else roundDiv (m * Nat.pow 10 places) (Nat.pow 2 (-q).toNat)
  let whole := digits (scaled / Nat.pow 10 places)
  if places = 0 then whole
  else
    let part := digits (scaled % Nat.pow 10 places)
    whole ++ '.' :: (List.replicate (places - part.length) '0' ++ part)

def sign (f : FixedFormat) (neg : Bool) : List Char :=
  if neg then ['-'] else if f.plus then ['+'] else []

/-- Not a number has no sign, and an infinity has one as any number has. -/
def render (f : FixedFormat) (x : Float) : String :=
  let text := match Binary.ofFloat x with
    | .nan => "NaN".toList
    | .infinite neg => f.sign neg ++ "inf".toList
    | .finite neg m q => f.sign neg ++ unsigned f.places m q
  String.ofList (List.replicate (f.width - text.length) ' ' ++ text)

end FixedFormat

end EngineBench.Number
