-- The text of a JSON document: strings with their escapes, and the tree that a text spells.
import EngineBench.Data.Datum
import EngineBench.Json.Number

namespace EngineBench.Json

inductive Scalar where
  | null
  | bool (b : Bool)
  | number (n : Numeral)
  | string (s : String)

def isGap (c : Char) : Bool := c == ' ' || c == '\n' || c == '\t' || c == '\r'

def skipGap (s : List Char) : List Char := s.dropWhile isGap

/-! ## Strings -/

def hexValue (c : Char) : Option Nat :=
  if '0' ≤ c && c ≤ '9' then some (c.toNat - 48)
  else if 'a' ≤ c && c ≤ 'f' then some (c.toNat - 87)
  else if 'A' ≤ c && c ≤ 'F' then some (c.toNat - 55)
  else none

/-- The value of four hexadecimal digits. -/
def hexWord (a b c d : Char) : Option Nat := do
  return ((← hexValue a) * 16 + (← hexValue b)) * 256 + (← hexValue c) * 16 + (← hexValue d)

def simpleEscape (c : Char) : Option Char :=
  match c with
  | '"' => some '"'
  | '\\' => some '\\'
  | '/' => some '/'
  | 'b' => some '\x08'
  | 'f' => some '\x0c'
  | 'n' => some '\n'
  | 'r' => some '\r'
  | 't' => some '\t'
  | _ => none

/-- Adds a character to what was read behind it. -/
def prepend (c : Char) (r : Option (List Char) × List Char) : Option (List Char) × List Char :=
  (r.1.map (c :: ·), r.2)

/-- Reads a string behind its opening quote: its characters and the text after the closing
quote. Characters outside the first plane may be two escapes in a row; a string in which one of the
two stands alone has no characters. -/
def readString : List Char → Option (Option (List Char) × List Char)
  | [] => none
  | '"' :: rest => some (some [], rest)
  | '\\' :: 'u' :: a :: b :: c :: d :: rest =>
    match hexWord a b c d with
    | none => none
    | some n =>
      if n < 0xD800 || 0xE000 ≤ n then (readString rest).map (prepend (Char.ofNat n))
      else
        let alone := (readString rest).map fun r => (none, r.2)
        match rest with
        | '\\' :: 'u' :: e :: f :: g :: h :: rest' =>
          match hexWord e f g h with
          | none => none
          | some m =>
            if n < 0xDC00 && 0xDC00 ≤ m && m < 0xE000 then
              (readString rest').map
                (prepend (Char.ofNat (0x10000 + (n - 0xD800) * 0x400 + (m - 0xDC00))))
            else alone
        | _ => alone
  | '\\' :: c :: rest =>
    match simpleEscape c with
    | some e => (readString rest).map (prepend e)
    | none => none
  | c :: rest =>
    if c.toNat < 0x20 || c = '\\' then none
    else (readString rest).map (prepend c)

/-! ## Values -/

/-- A tree and what is left of the text; nothing is left behind a place where it goes wrong. -/
abbrev Piece := Data.Datum Scalar × Option (List Char)

def wrong : Piece := (.torn, none)

def stringDatum (text : Option (List Char)) : Data.Datum Scalar :=
  match text with
  | some text => .leaf (.string (String.ofList text))
  | none => .valueless

def numberDatum (n : Option Numeral) : Data.Datum Scalar :=
  match n with
  | some n => .leaf (.number n)
  | none => .valueless

mutual

/-- Reads a value. At most `depth` lists and objects may be open at a time. -/
def readValue : Nat → Nat → List Char → Piece
  | 0, _, _ => wrong
  | fuel + 1, depth, s =>
    match skipGap s with
    | 'n' :: 'u' :: 'l' :: 'l' :: rest => (.leaf .null, some rest)
    | 't' :: 'r' :: 'u' :: 'e' :: rest => (.leaf (.bool true), some rest)
    | 'f' :: 'a' :: 'l' :: 's' :: 'e' :: rest => (.leaf (.bool false), some rest)
    | '"' :: rest =>
      match readString rest with
      | some (text, rest) => (stringDatum text, some rest)
      | none => wrong
    | '[' :: rest =>
      match depth with
      | 0 => wrong
      | depth + 1 =>
        match skipGap rest with
        | ']' :: rest => (.seq [], some rest)
        | rest =>
          let (items, left) := readItems fuel depth rest
          (.seq items, left)
    | '\x7b' :: rest =>
      match depth with
      | 0 => wrong
      | depth + 1 =>
        match skipGap rest with
        | '\x7d' :: rest => (.map [], some rest)
        | rest =>
          let (items, left) := readMembers fuel depth rest
          (.map items, left)
    | '-' :: rest =>
      match readNumeral true rest with
      | some (n, rest) => (numberDatum n, some rest)
      | none => wrong
    | c :: rest =>
      if c.isDigit then
        match readNumeral false (c :: rest) with
        | some (n, rest) => (numberDatum n, some rest)
        | none => wrong
      else wrong
    | [] => wrong

/-- Reads the items of a list up to its end. -/
def readItems : Nat → Nat → List Char → List (Data.Datum Scalar) × Option (List Char)
  | 0, _, _ => ([.torn], none)
  | fuel + 1, depth, s =>
    match readValue fuel depth s with
    | (t, none) => ([t], none)
    | (t, some rest) =>
      match skipGap rest with
      | ']' :: rest => ([t], some rest)
      | ',' :: rest =>
        let (ts, left) := readItems fuel depth rest
        (t :: ts, left)
      | _ => ([t, .torn], none)

/-- Reads the members of an object up to its end. -/
def readMembers : Nat → Nat → List Char → List (Data.Datum Scalar) × Option (List Char)
  | 0, _, _ => ([.torn], none)
  | fuel + 1, depth, s =>
    match skipGap s with
    | '"' :: rest =>
      match readString rest with
      | none => ([.torn], none)
      | some (key, rest) =>
        let k := stringDatum key
        match skipGap rest with
        | ':' :: rest =>
          match readValue fuel depth rest with
          | (v, none) => ([k, v], none)
          | (v, some rest) =>
            match skipGap rest with
            | '\x7d' :: rest => ([k, v], some rest)
            | ',' :: rest =>
              let (ts, left) := readMembers fuel depth rest
              (k :: v :: ts, left)
            | _ => ([k, v, .torn], none)
        | _ => ([k, .torn], none)
    | _ => ([.torn], none)

end

/-- The tree of a text and whether the text ends behind it; at most `depth` lists and objects may be
open at a time. Every step of the reader takes a character, so the length of the text bounds their
number. -/
def read (depth : Nat) (s : List Char) : Data.Datum Scalar × Bool :=
  match readValue (2 * s.length + 2) depth s with
  | (t, some rest) => (t, (skipGap rest).isEmpty)
  | (t, none) => (t, false)

end EngineBench.Json
