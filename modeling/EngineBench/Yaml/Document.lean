-- A YAML text as one document: its tree, with aliases as references, and what its scalars mean.
import EngineBench.Data.Decode
import EngineBench.Yaml.Event

namespace EngineBench.Yaml

/-- A scalar as it is written; what it means depends on what is asked for. -/
structure Scalar where
  text : String
  style : Style
  tag : Option String
  deriving DecidableEq, Repr

/-! ## Nodes with their anchors -/

/-- An event of a document with its anchor and alias names replaced by numbers. -/
inductive Part where
  | alias (id : Nat)
  | scalar (anchor : Option Nat) (s : Scalar)
  | sequence (anchor : Option Nat)
  | mapping (anchor : Option Nat)
  | close
  deriving DecidableEq, Repr

/-- Gives a name the next number: the count of the names known so far, this one included only if it
was known before. -/
def declare (names : List (String × Nat)) : Option String → Option Nat × List (String × Nat)
  | none => (none, names)
  | some name =>
    let id := names.length
    (some id, (name, id) :: names.filter (·.1 ≠ name))

/-- The parts of the first document, and the events behind it. The parts break off where the text
goes wrong or where an alias has no anchor; then there is nothing behind them. -/
def parts (names : List (String × Nat)) : List Event → List Part × Option (List Event)
  | [] => ([], none)
  | .documentStart :: es => parts names es
  | .documentEnd :: es => ([], some es)
  | .streamEnd :: _ => ([], some [.streamEnd])
  | .alias name :: es =>
    match names.lookup name with
    | some id =>
      let (ps, rest) := parts names es
      (.alias id :: ps, rest)
    | none => ([], none)
  | .scalar p text style :: es =>
    let (id, names) := declare names p.anchor
    let (ps, rest) := parts names es
    (.scalar id ⟨text, style, p.tag⟩ :: ps, rest)
  | .sequenceStart p :: es =>
    let (id, names) := declare names p.anchor
    let (ps, rest) := parts names es
    (.sequence id :: ps, rest)
  | .mappingStart p :: es =>
    let (id, names) := declare names p.anchor
    let (ps, rest) := parts names es
    (.mapping id :: ps, rest)
  | .sequenceEnd :: es =>
    let (ps, rest) := parts names es
    (.close :: ps, rest)
  | .mappingEnd :: es =>
    let (ps, rest) := parts names es
    (.close :: ps, rest)

abbrev Anchors := List (Nat × Data.Datum Scalar)

def anchored (id : Option Nat) (t : Data.Datum Scalar) : Anchors := (id.map (·, t)).toList

mutual

/-- The tree at the head of the parts, the anchors in it in the order of their starts, and the parts
behind it. -/
def tree : Nat → List Part → Data.Datum Scalar × Anchors × List Part
  | 0, _ => (.torn, [], [])
  | _ + 1, [] => (.torn, [], [])
  | _ + 1, .close :: ps => (.torn, [], ps)
  | _ + 1, .alias id :: ps => (.ref id, [], ps)
  | _ + 1, .scalar id s :: ps => (.leaf s, anchored id (.leaf s), ps)
  | fuel + 1, .sequence id :: ps =>
    let (ts, anchors, rest) := trees fuel ps
    (.seq ts, anchored id (.seq ts) ++ anchors, rest)
  | fuel + 1, .mapping id :: ps =>
    let (ts, anchors, rest) := trees fuel ps
    (.map ts, anchored id (.map ts) ++ anchors, rest)

/-- The trees up to the end of the collection that is open. -/
def trees : Nat → List Part → List (Data.Datum Scalar) × Anchors × List Part
  | 0, _ => ([.torn], [], [])
  | _ + 1, [] => ([.torn], [], [])
  | _ + 1, .close :: ps => ([], [], ps)
  | fuel + 1, ps =>
    let (t, anchors, rest) := tree fuel ps
    let (ts, anchors', rest') := trees fuel rest
    (t :: ts, anchors ++ anchors', rest')

end

/-! ## What a plain scalar says -/

def isNullWord (s : String) : Bool := s == "null" || s == "Null" || s == "NULL" || s == "~"

def boolWord (s : String) : Option Bool :=
  if s == "true" || s == "True" || s == "TRUE" then some true
  else if s == "false" || s == "False" || s == "FALSE" then some false
  else none

/-- The number of digits in a base; letters count on from ten. -/
def inBase (base : Nat) (s : List Char) : Option Nat :=
  if s.isEmpty then none
  else s.foldlM (fun n c => do
    let d ← if c.isDigit then some (c.toNat - 48) else (hexDigitValue c)
    if d < base then some (n * base + d) else none) 0

def dropPlus : List Char → List Char
  | '+' :: s => s
  | s => s

def startsSigned : List Char → Bool
  | '+' :: _ => true
  | '-' :: _ => true
  | _ => false

/-- Several digits that start with a zero are a text. -/
def isZeroPadded (s : List Char) : Bool :=
  let digits := match s with
    | '+' :: r => r
    | '-' :: r => r
    | r => r
  match digits with
  | '0' :: r => !r.isEmpty && r.all Char.isDigit
  | _ => false

/-- A number that stands behind a base mark, if one does. -/
def basedNumber : List Char → Option Nat
  | '0' :: 'x' :: s => inBase 16 s
  | '0' :: 'o' :: s => inBase 8 s
  | '0' :: 'b' :: s => inBase 2 s
  | _ => none

/-- A number without a minus sign, below `limit`. -/
def naturalWord (limit : Nat) (s : List Char) : Option Nat :=
  let body := dropPlus s
  match (basedNumber body).filter (· < limit) with
  | some n => some n
  | none =>
    if startsSigned body || isZeroPadded s then none
    else (inBase 10 body).filter (· < limit)

/-- A number with a minus sign, not below `-limit`. -/
def negativeWord (limit : Nat) : List Char → Option Int
  | '-' :: body =>
    let n := match (basedNumber body).filter (· ≤ limit) with
      | some n => some n
      | none =>
        if isZeroPadded ('-' :: body) then none
        else (inBase 10 body).filter (· ≤ limit)
    n.map fun n => -(n : Int)
  | _ => none

/-- The parts of a decimal number: whole digits, digits behind the point, and the exponent. -/
def decimalParts (s : List Char) : Option (List Char × List Char × Int) :=
  let whole := s.takeWhile Char.isDigit
  let rest := s.drop whole.length
  let (places, rest) := match rest with
    | '.' :: r => (r.takeWhile Char.isDigit, r.dropWhile Char.isDigit)
    | r => ([], r)
  if whole.isEmpty && places.isEmpty then none
  else
    match rest with
    | [] => some (whole, places, 0)
    | c :: r =>
      if c == 'e' || c == 'E' then
        let (down, ds) := match r with
          | '-' :: r => (true, r)
          | '+' :: r => (false, r)
          | r => (false, r)
        if ds.isEmpty || !ds.all Char.isDigit then none
        else
          let e : Int := Number.digitsValue (ds.take 9)
          some (whole, places, if down then -e else e)
      else none

/-- The double nearest to a decimal number, unless it is beyond all doubles. -/
def finiteNumber (s : List Char) : Option Float := do
  let (neg, body) := match s with
    | '-' :: r => (true, r)
    | '+' :: r => (false, r)
    | r => (false, r)
  let (whole, places, e) ← decimalParts body
  let m := Number.digitsValue (whole ++ places)
  let e := e - (places.length : Int)
  let x :=
    if m = 0 then 0
    else if 0 ≤ e then Float.ofScientific (m * Nat.pow 10 (min e 400).toNat) false 0
    else Float.ofScientific m true (min (-e) 2000).toNat
  let x := if neg then -x else x
  if x.isInf then none else some x

def floatWord (s : List Char) : Option Float :=
  let body := dropPlus s
  if body ≠ s && startsSigned body then none
  else
    let word := String.ofList body
    let whole := String.ofList s
    if word == ".inf" || word == ".Inf" || word == ".INF" then some (1 / 0)
    else if whole == "-.inf" || whole == "-.Inf" || whole == "-.INF" then some (-1 / 0)
    else if whole == ".nan" || whole == ".NaN" || whole == ".NAN" then some (0 / 0)
    else finiteNumber body

/-! ## What is found in a place -/

open Data (Found Mismatch)

def foundInteger (s : List Char) : Option Found :=
  match naturalWord UInt64.size s with
  | some n => some (.integer n)
  | none =>
    match negativeWord (Nat.pow 2 63) s with
    | some n => some (.integer n)
    | none =>
      match naturalWord (Nat.pow 2 128) s with
      | some n => some (.wideNatural n)
      | none => (negativeWord (Nat.pow 2 127) s).map .wideInteger

def foundPlain (text : String) : Found :=
  let s := text.toList
  if text.isEmpty || isNullWord text then .unit "unit value"
  else
    match boolWord text with
    | some b => .bool b
    | none =>
      match foundInteger s with
      | some f => f
      | none =>
        match (if isZeroPadded s then none else floatWord s) with
        | some x => .float (Number.plainText x)
        | none => .string text

def boolTag : String := "tag:yaml.org,2002:bool"
def intTag : String := "tag:yaml.org,2002:int"
def floatTag : String := "tag:yaml.org,2002:float"
def nullTag : String := "tag:yaml.org,2002:null"

/-- What a scalar is taken for where it does not fit. A tag of a basic type decides, and then the
text must be of that type; a local tag changes nothing. -/
def complaint (s : Scalar) (expected : String) : Mismatch :=
  let typed (f : Option Found) (wanted : String) : Mismatch :=
    match f with
    | some f => .invalidType f expected
    | none => .invalidValue (.string s.text) wanted
  let untagged : Mismatch :=
    .invalidType (if s.style = .plain then foundPlain s.text else .string s.text) expected
  match s.tag with
  | none => untagged
  | some tag =>
    if tag == boolTag then typed ((boolWord s.text).map .bool) "a boolean"
    else if tag == intTag then typed (foundInteger s.text.toList) "an integer"
    else if tag == floatTag then
      typed ((floatWord s.text.toList).map fun x => .float (Number.plainText x)) "a float"
    else if tag == nullTag then
      typed (if isNullWord s.text then some (.unit "unit value") else none) "null"
    else if tag.toList.head? == some '!' then untagged
    else .invalidType (.string s.text) expected

/-- Whether a number or truth value may be read from a scalar: it is plain, or a literal block with
the tag of the type. -/
def isReadable (tag : String) (s : Scalar) : Bool :=
  s.style == .plain || (s.style == .literal && s.tag == some tag)

/-- Every scalar is a text; truth values, numbers and null are plain words. -/
def format : Data.Format Scalar where
  text s _ := .ok s.text
  bool s :=
    match (if isReadable boolTag s then boolWord s.text else none) with
    | some b => .ok b
    | none => .error (complaint s "a boolean")
  natural s limit expected :=
    match (if isReadable intTag s then naturalWord (limit + 1) s.text.toList else none) with
    | some n => .ok n
    | none => .error (complaint s expected)
  isNull s :=
    if s.style ≠ .plain then .ok false
    else
      match s.tag with
      | none => .ok (s.text.isEmpty || isNullWord s.text)
      | some tag =>
        if tag == nullTag then
          if isNullWord s.text then .ok true
          else .error (.invalidValue (.string s.text) "null")
        else .ok false
  isEmpty s := s.text.isEmpty && s.style == .plain
  complaint := complaint
  positional := false
  strictLength := false

/-! ## The document -/

/-- The document of a text, and whether it is the only one and nothing behind it is wrong. A text
without a document has an empty one. -/
def document (text : List Char) : Data.Document Scalar × Bool :=
  let es := events text
  let (ps, rest) := parts [] es
  let single := match rest with
    | some [.streamEnd] => true
    | _ => false
  let ps := if ps.isEmpty && single then [.scalar none ⟨"", .plain, none⟩] else ps
  let (root, anchors, _) := tree (2 * ps.length + 2) ps
  (⟨root, anchors.reverse, 100 * ps.length⟩, single)

/-- Reads a typed value from a text that is one document. -/
def decode {α : Type} (read : Data.Document Scalar → Data.Datum Scalar → Data.Decode α)
    (text : List Char) : Except Data.Fault α :=
  let (d, single) := document text
  match (read d d.root).run 0 with
  | .ok (a, _) => if single then .ok a else .error .malformed
  | .error e => .error e

end EngineBench.Yaml
