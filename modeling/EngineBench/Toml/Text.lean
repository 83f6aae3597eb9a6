-- The lexical rules of TOML: blanks, comments, keys, strings, numbers and dates. Every reader
-- gives what it has read and the text behind it, or nothing if the rules are broken.
import EngineBench.Number.Shortest

namespace EngineBench.Toml

inductive Scalar where
  | string (s : String)
  | integer (n : Int)
  | float (x : Float)
  | bool (b : Bool)
  | datetime (text : String)

/-- A reader of `α` from the front of a text. -/
abbrev Reader (α : Type) := List Char → Option (α × List Char)

/-! ## Blanks, comments and line ends -/

def isBlank (c : Char) : Bool := c == ' ' || c == '\t'

def skipBlanks (s : List Char) : List Char := s.dropWhile isBlank

/-- The characters of comments and literal strings: no control character but the tab. -/
def isPrinted (c : Char) : Bool := c == '\t' || (0x20 ≤ c.toNat && c.toNat ≠ 0x7F)

def skipComment (s : List Char) : List Char :=
  match s with
  | '#' :: rest => rest.dropWhile isPrinted
  | s => s

/-- The text behind a line end, if one stands here. -/
def lineEnd? : List Char → Option (List Char)
  | '\n' :: s => some s
  | '\r' :: '\n' :: s => some s
  | _ => none

/-- Moves over blanks, comments and line ends. -/
def skipFree : Bool → List Char → List Char
  | _, '\n' :: s => skipFree false s
  | _, '\r' :: '\n' :: s => skipFree false s
  | true, c :: s => if isPrinted c then skipFree true s else c :: s
  | false, c :: s =>
    if isBlank c then skipFree false s
    else if c == '#' then skipFree true s
    else c :: s
  | _, [] => []

/-! ## Strings -/

def hexDigitOf (c : Char) : Option Nat :=
  if '0' ≤ c && c ≤ '9' then some (c.toNat - 48)
  else if 'a' ≤ c && c ≤ 'f' then some (c.toNat - 87)
  else if 'A' ≤ c && c ≤ 'F' then some (c.toNat - 55)
  else none

/-- The character of a number in hexadecimal digits; surrogates are none. -/
def scalarOf (ds : List Char) : Option Char := do
  let n ← ds.foldlM (fun n d => (hexDigitOf d).map (n * 16 + ·)) 0
  if (0xD800 ≤ n && n ≤ 0xDFFF) || 0x10FFFF < n then none else some (Char.ofNat n)

def escapeOf (c : Char) : Option Char :=
  match c with
  | 'b' => some '\x08'
  | 't' => some '\t'
  | 'n' => some '\n'
  | 'f' => some '\x0c'
  | 'r' => some '\r'
  | '"' => some '"'
  | '\\' => some '\\'
  | _ => none

/-- Reads a string of one line behind its opening quote. -/
def basicString : Reader (List Char)
  | [] => none
  | '"' :: s => some ([], s)
  | '\\' :: 'u' :: a :: b :: c :: d :: s => do
    let ch ← scalarOf [a, b, c, d]
    (basicString s).map fun (t, r) => (ch :: t, r)
  | '\\' :: 'U' :: a :: b :: c :: d :: e :: f :: g :: h :: s => do
    let ch ← scalarOf [a, b, c, d, e, f, g, h]
    (basicString s).map fun (t, r) => (ch :: t, r)
  | '\\' :: c :: s => do
    let ch ← escapeOf c
    (basicString s).map fun (t, r) => (ch :: t, r)
  | c :: s =>
    if c == '\\' || !isPrinted c then none
    else (basicString s).map fun (t, r) => (c :: t, r)

def literalString (s : List Char) : Option (List Char × List Char) :=
  let text := s.takeWhile fun c => c ≠ '\'' && isPrinted c
  match s.drop text.length with
  | '\'' :: rest => some (text, rest)
  | _ => none

def dropFirstLineEnd (s : List Char) : List Char := (lineEnd? s).getD s

/-- Where a text of several lines stands behind a backslash at the end of a line: at the end of
that line, or among the blanks and line ends after it. -/
inductive Margin where
  | inside
  | lineTail
  | lead
  deriving DecidableEq

/-- Reads a string of several lines behind its opening quotes. Three quotes close it, and one or
two more before them belong to it. -/
def longBasic : Margin → Reader (List Char)
  | .lineTail, '\n' :: s => longBasic .lead s
  | .lineTail, '\r' :: '\n' :: s => longBasic .lead s
  | .lineTail, c :: s => if isBlank c then longBasic .lineTail s else none
  | .lineTail, [] => none
  | .lead, '\n' :: s => longBasic .lead s
  | .lead, '\r' :: '\n' :: s => longBasic .lead s
  | .lead, ' ' :: s => longBasic .lead s
  | .lead, '\t' :: s => longBasic .lead s
  | _, '"' :: '"' :: '"' :: '"' :: '"' :: s => some (['"', '"'], s)
  | _, '"' :: '"' :: '"' :: '"' :: s => some (['"'], s)
  | _, '"' :: '"' :: '"' :: s => some ([], s)
  | _, '\r' :: '\n' :: s => (longBasic .inside s).map fun (t, r) => ('\n' :: t, r)
  | _, '\\' :: 'u' :: a :: b :: c :: d :: s => do
    let ch ← scalarOf [a, b, c, d]
    (longBasic .inside s).map fun (t, r) => (ch :: t, r)
  | _, '\\' :: 'U' :: a :: b :: c :: d :: e :: f :: g :: h :: s => do
    let ch ← scalarOf [a, b, c, d, e, f, g, h]
    (longBasic .inside s).map fun (t, r) => (ch :: t, r)
  | _, '\\' :: '\n' :: s => longBasic .lead s
  | _, '\\' :: '\r' :: '\n' :: s => longBasic .lead s
  | _, '\\' :: c :: s =>
    if isBlank c then longBasic .lineTail s
    else do
      let ch ← escapeOf c
      (longBasic .inside s).map fun (t, r) => (ch :: t, r)
  | _, c :: s =>
    if c == '\\' || !(isPrinted c || c == '\n') then none
    else (longBasic .inside s).map fun (t, r) => (c :: t, r)
  | _, [] => none

def longLiteral : Reader (List Char)
  | '\'' :: '\'' :: '\'' :: '\'' :: '\'' :: s => some (['\'', '\''], s)
  | '\'' :: '\'' :: '\'' :: '\'' :: s => some (['\''], s)
  | '\'' :: '\'' :: '\'' :: s => some ([], s)
  | '\r' :: '\n' :: s => (longLiteral s).map fun (t, r) => ('\n' :: t, r)
  | c :: s =>
    if isPrinted c || c == '\n' then (longLiteral s).map fun (t, r) => (c :: t, r) else none
  | [] => none

def anyString : Reader String := fun s =>
  let result := match s with
    | '"' :: '"' :: '"' :: rest => longBasic .inside (dropFirstLineEnd rest)
    | '\'' :: '\'' :: '\'' :: rest => longLiteral (dropFirstLineEnd rest)
    | '"' :: rest => basicString rest
    | '\'' :: rest => literalString rest
    | _ => none
  result.map fun (t, r) => (String.ofList t, r)

/-! ## Keys -/

def isBareChar (c : Char) : Bool := c.isAlphanum || c == '_' || c == '-'

def simpleKey : Reader String := fun s =>
  match s with
  | '"' :: rest => (basicString rest).map fun (t, r) => (String.ofList t, r)
  | '\'' :: rest => (literalString rest).map fun (t, r) => (String.ofList t, r)
  | s =>
    let name := s.takeWhile isBareChar
    if name.isEmpty then none else some (String.ofList name, s.drop name.length)

/-- A key of one or more names with dots between them. -/
def dottedKey : Nat → Reader (List String)
  | 0, _ => none
  | fuel + 1, s => do
    let (name, rest) ← simpleKey (skipBlanks s)
    match skipBlanks rest with
    | '.' :: rest => do
      let (names, rest) ← dottedKey fuel rest
      some (name :: names, rest)
    | rest => some ([name], rest)

def key (s : List Char) : Option (List String × List Char) := dottedKey (s.length + 1) s

/-! ## Numbers -/

def isHexDigit (c : Char) : Bool := (hexDigitOf c).isSome

/-- Digits with single underscores between them: the digits without the underscores. -/
def digitRun (isDigit : Char → Bool) : Reader (List Char)
  | c :: '_' :: d :: s =>
    if isDigit c && isDigit d then (digitRun isDigit (d :: s)).map fun (t, r) => (c :: t, r)
    else if isDigit c then some ([c], '_' :: d :: s)
    else none
  | c :: s =>
    if isDigit c then
      match digitRun isDigit s with
      | some (t, r) => some (c :: t, r)
      | none => some ([c], s)
    else none
  | [] => none

def inRange (n : Int) : Option Int :=
  if Int64.minValue.toInt ≤ n && n ≤ Int64.maxValue.toInt then some n else none

def valueIn (base : Nat) (ds : List Char) : Nat :=
  ds.foldl (fun n c => n * base + (hexDigitOf c).getD 0) 0

def basedInteger (base : Nat) (isDigit : Char → Bool) : Reader Scalar := fun s => do
  let (ds, rest) ← digitRun isDigit s
  return (.integer (← inRange (valueIn base ds)), rest)

/-- The whole part of a decimal number, which has no zero in front. -/
def wholePart : Reader (List Char)
  | '0' :: s => some (['0'], s)
  | s => digitRun Char.isDigit s

def exponentPart : Reader Int := fun s =>
  match s with
  | c :: rest =>
    if c == 'e' || c == 'E' then
      let (down, rest) := match rest with
        | '-' :: r => (true, r)
        | '+' :: r => (false, r)
        | r => (false, r)
      (digitRun Char.isDigit rest).map fun (ds, r) =>
        let n : Int := Number.digitsValue (ds.take 9)
        (if down then -n else n, r)
    else none
  | [] => none

def toFloat (neg : Bool) (whole places : List Char) (e : Int) : Option Float :=
  let m := Number.digitsValue (whole ++ places)
  let e := e - (places.length : Int)
  let x :=
    if m = 0 then 0
    else if 0 ≤ e then Float.ofScientific (m * Nat.pow 10 (min e 400).toNat) false 0
    else Float.ofScientific m true (min (-e) 2000).toNat
  if neg then some (-x) else if x.isInf then none else some x

def number (s : List Char) : Option (Scalar × List Char) := do
  let (signed, neg, body) := match s with
    | '-' :: r => (true, true, r)
    | '+' :: r => (true, false, r)
    | r => (false, false, r)
  match body with
  | 'i' :: 'n' :: 'f' :: rest => some (.float (if neg then -1 / 0 else 1 / 0), rest)
  | 'n' :: 'a' :: 'n' :: rest => some (.float (0 / 0), rest)
  | '0' :: 'x' :: rest => if signed then none else basedInteger 16 isHexDigit rest
  | '0' :: 'o' :: rest =>
    if signed then none else basedInteger 8 (fun c => '0' ≤ c && c ≤ '7') rest
  | '0' :: 'b' :: rest =>
    if signed then none else basedInteger 2 (fun c => c == '0' || c == '1') rest
  | _ => do
    let (whole, rest) ← wholePart body
    match rest with
    | '.' :: tail =>
      let (places, rest) ← digitRun Char.isDigit tail
      match rest with
      | c :: _ =>
        if c == 'e' || c == 'E' then
          let (e, rest) ← exponentPart rest
          return (.float (← toFloat neg whole places e), rest)
        else return (.float (← toFloat neg whole places 0), rest)
      | [] => return (.float (← toFloat neg whole places 0), [])
    | c :: _ =>
      if c == 'e' || c == 'E' then
        let (e, rest) ← exponentPart rest
        return (.float (← toFloat neg whole [] e), rest)
      else
        let n : Int := Number.digitsValue whole
        return (.integer (← inRange (if neg then -n else n)), rest)
    | [] =>
      let n : Int := Number.digitsValue whole
      return (.integer (← inRange (if neg then -n else n)), [])

/-! ## Dates and times -/

/-- A number of exactly `n` digits. -/
def fixedDigits (n : Nat) : Reader Nat := fun s =>
  let ds := s.take n
  if ds.length = n && ds.all Char.isDigit then some (Number.digitsValue ds, s.drop n) else none

def isLeap (y : Nat) : Bool := y % 4 = 0 && (y % 100 ≠ 0 || y % 400 = 0)

def daysIn (y m : Nat) : Nat :=
  if m = 2 then (if isLeap y then 29 else 28)
  else if m = 4 || m = 6 || m = 9 || m = 11 then 30 else 31

def expect (c : Char) : List Char → Option (List Char)
  | d :: s => if c = d then some s else none
  | [] => none

/-- Reads a date as it is written. -/
def date : Reader (List Char) := fun s => do
  let (y, rest) ← fixedDigits 4 s
  let (m, rest) ← fixedDigits 2 (← expect '-' rest)
  let (d, rest) ← fixedDigits 2 (← expect '-' rest)
  if 1 ≤ m && m ≤ 12 && 1 ≤ d && d ≤ daysIn y m then
    some (s.take (s.length - rest.length), rest)
  else none

/-- A fraction of a second to nine places, without the zeros at its end. -/
def fraction (ds : List Char) : List Char :=
  match ((ds.take 9).reverse.dropWhile (· == '0')).reverse with
  | [] => []
  | kept => '.' :: kept

/-- Reads a time of day, whose seconds may have a fraction. -/
def timeOfDay : Reader (List Char) := fun s => do
  let (h, rest) ← fixedDigits 2 s
  let (m, rest) ← fixedDigits 2 (← expect ':' rest)
  let (sec, rest) ← fixedDigits 2 (← expect ':' rest)
  let whole := s.take (s.length - rest.length)
  if h ≤ 23 && m ≤ 59 && sec ≤ 60 then
    match rest with
    | '.' :: tail =>
      let ds := tail.takeWhile Char.isDigit
      if ds.isEmpty then none else some (whole ++ fraction ds, tail.drop ds.length)
    | rest => some (whole, rest)
  else none

/-- Reads an offset from universal time, if one stands here. The zero offset has no minus sign. -/
def offset : Reader (List Char) := fun s =>
  match s with
  | 'Z' :: rest => some (['Z'], rest)
  | 'z' :: rest => some (['Z'], rest)
  | c :: tail =>
    if c == '+' || c == '-' then do
      let (h, rest) ← fixedDigits 2 tail
      let (m, rest) ← fixedDigits 2 (← expect ':' rest)
      let sign := if h = 0 && m = 0 then '+' else c
      let digits := tail.take (tail.length - rest.length)
      if h ≤ 23 && m ≤ 59 then some (sign :: digits, rest) else none
    else some ([], s)
  | [] => some ([], [])

def startsDate (s : List Char) : Bool :=
  match fixedDigits 4 s with
  | some (_, '-' :: _) => true
  | _ => false

def startsTime (s : List Char) : Bool :=
  match fixedDigits 2 s with
  | some (_, ':' :: _) => true
  | _ => false

/-- Reads a date, a time, or both, with a T between the two. -/
def datetime : Reader (List Char) := fun s =>
  if startsDate s then do
    let (day, rest) ← date s
    match rest with
    | c :: tail =>
      if c == 'T' || c == 't' || (c == ' ' && startsTime tail) then do
        let (time, rest) ← timeOfDay tail
        let (shift, rest) ← offset rest
        some (day ++ 'T' :: (time ++ shift), rest)
      else some (day, rest)
    | [] => some (day, [])
  else if startsTime s then timeOfDay s
  else none

/-! ## Scalars -/

def scalar (s : List Char) : Option (Scalar × List Char) :=
  match s with
  | 't' :: 'r' :: 'u' :: 'e' :: rest => some (.bool true, rest)
  | 'f' :: 'a' :: 'l' :: 's' :: 'e' :: rest => some (.bool false, rest)
  | c :: _ =>
    if c == '"' || c == '\'' then (anyString s).map fun (t, r) => (.string t, r)
    else if startsDate s || startsTime s then
      (datetime s).map fun (t, r) => (.datetime (String.ofList t), r)
    else number s
  | [] => none

end EngineBench.Toml
