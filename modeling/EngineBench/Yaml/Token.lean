-- The tokens of a YAML text, and the readers of those that are neither punctuation nor the text
-- of a scalar: anchors, tags and directives.
import EngineBench.Yaml.Scalar

namespace EngineBench.Yaml

inductive Token where
  | version (major minor : Nat)
  | tagDirective (handle content : String)
  | documentStart
  | documentEnd
  | streamEnd
  | blockSequence
  | blockMapping
  | blockEnd
  | flowSequence
  | flowSequenceEnd
  | flowMapping
  | flowMappingEnd
  | blockEntry
  | flowEntry
  | key
  | value
  | alias (name : String)
  | anchor (name : String)
  | tag (handle suffix : String)
  | scalar (text : String) (style : Style)
  deriving DecidableEq, Repr

/-! ## Anchors and aliases -/

/-- A name ends before a blank, a line break, or one of the indicators that may follow it. -/
def endsName (c : Cursor) : Bool :=
  match c.rest with
  | [] => true
  | ch :: _ =>
    isSpaceOrBreak ch || ch == '?' || ch == ':' || ch == ',' || ch == ']' || ch == '\x7d' ||
      ch == '%' || ch == '@' || ch == '\x60'

/-- The name of an anchor or alias, behind its indicator. -/
def anchorName (c : Cursor) : Option (String × Cursor) :=
  let name := (c.advance 1).rest.takeWhile isNameChar
  let next := c.advance (1 + name.length)
  if name.isEmpty || !endsName next then none else some (String.ofList name, next)

/-! ## Tags -/

def isUriChar (verbatim : Bool) (c : Char) : Bool :=
  isNameChar c || ";/?:@&=+$.!~*'()%".toList.contains c ||
    (verbatim && (c == ',' || c == '[' || c == ']'))

/-- The bytes that a run of percent escapes stands for, up to the end of one character. -/
def uriChar : List Char → Option (Char × List Char)
  | '%' :: a :: b :: s => do
    let first ← byte a b
    if first < 0x80 then some (Char.ofNat first, s)
    else if 0xC0 ≤ first && first < 0xE0 then
      let (n, s) ← more 1 (first % 32) s
      some (Char.ofNat n, s)
    else if 0xE0 ≤ first && first < 0xF0 then
      let (n, s) ← more 2 (first % 16) s
      some (Char.ofNat n, s)
    else if 0xF0 ≤ first && first < 0xF8 then
      let (n, s) ← more 3 (first % 8) s
      some (Char.ofNat n, s)
    else none
  | _ => none
where
  byte (a b : Char) : Option Nat := do
    return (← hexDigitValue a) * 16 + (← hexDigitValue b)
  more : Nat → Nat → List Char → Option (Nat × List Char)
    | 0, n, s => some (n, s)
    | k + 1, n, s =>
      match s with
      | '%' :: a :: b :: s =>
        match byte a b with
        | some m => if m / 64 = 2 then more k (n * 64 + m % 64) s else none
        | none => none
      | _ => none

/-- Puts characters in the place of percent escapes. -/
def decodeUri : Nat → List Char → Option (List Char)
  | 0, _ => none
  | _ + 1, [] => some []
  | fuel + 1, '%' :: s =>
    match uriChar ('%' :: s) with
    | some (c, rest) => (decodeUri fuel rest).map (c :: ·)
    | none => none
  | fuel + 1, c :: s => (decodeUri fuel s).map (c :: ·)

/-- A part of a tag: its text and the place behind it. -/
def tagUri (verbatim : Bool) (c : Cursor) : Option (List Char × Cursor) :=
  let raw := c.rest.takeWhile (isUriChar verbatim)
  (decodeUri (raw.length + 1) raw).map (·, c.advance raw.length)

/-- A handle: an exclamation mark, then a name that a second mark may close. -/
def tagHandle (c : Cursor) : List Char × Cursor :=
  let name := (c.advance 1).rest.takeWhile isNameChar
  let next := c.advance (1 + name.length)
  if next.isAt 0 '!' then ('!' :: name ++ ['!'], next.advance 1) else ('!' :: name, next)

/-- Reads a tag. One without a handle of its own has the handle of a single mark, and a mark that
stands alone is the tag itself. -/
def tagToken (flow : Bool) (c : Cursor) : Option (Token × Cursor) := do
  let (handle, suffix, next) ←
    if c.isAt 1 '<' then
      match tagUri true (c.advance 2) with
      | some (uri, next) =>
        if uri.isEmpty || !next.isAt 0 '>' then none else some ([], uri, next.advance 1)
      | none => none
    else
      let (handle, next) := tagHandle c
      if 1 < handle.length && handle.getLast? == some '!' then
        match tagUri false next with
        | some (uri, next) => if uri.isEmpty then none else some (handle, uri, next)
        | none => none
      else
        match tagUri false next with
        | some (uri, next) =>
          let suffix := handle.drop 1 ++ uri
          if suffix.isEmpty then some ([], ['!'], next) else some (['!'], suffix, next)
        | none => none
  if (flow && next.isAt 0 ',') || next.blankAt 0 then
    some (.tag (String.ofList handle) (String.ofList suffix), next)
  else none

/-! ## Directives -/

/-- A number of a version, with at most nine digits. -/
def versionNumber (c : Cursor) : Option (Nat × Cursor) :=
  let ds := c.rest.takeWhile Char.isDigit
  if ds.isEmpty || 9 < ds.length then none
  else some (ds.foldl (fun n d => n * 10 + (d.toNat - 48)) 0, c.advance ds.length)

def versionDirective (c : Cursor) : Option (Token × Cursor) := do
  let (major, c) ← versionNumber (c.skipWhile isSpace)
  if !c.isAt 0 '.' then none
  else
    let (minor, c) ← versionNumber (c.advance 1)
    some (.version major minor, c)

def tagDirective (c : Cursor) : Option (Token × Cursor) := do
  let c := c.skipWhile isSpace
  if !c.isAt 0 '!' then none
  else
    let (handle, next) := tagHandle c
    if 1 < handle.length && handle.getLast? != some '!' then none
    else if !(match next.rest with | ch :: _ => isSpace ch | [] => false) then none
    else
      let (content, next) ← tagUri true (next.skipWhile isSpace)
      if content.isEmpty || !next.blankAt 0 then none
      else some (.tagDirective (String.ofList handle) (String.ofList content), next)

/-- Reads a directive line from its percent sign. -/
def directive (c : Cursor) : Option (Token × Cursor) := do
  let name := (c.advance 1).rest.takeWhile isNameChar
  let behind := c.advance (1 + name.length)
  if !behind.blankAt 0 then none
  else
    let (token, next) ←
      if name = "YAML".toList then versionDirective behind
      else if name = "TAG".toList then tagDirective behind
      else none
    let next := next.skipWhile isSpace
    let next := if next.isAt 0 '#' then next.skipWhile (fun ch => !isBreak ch) else next
    if next.breakOrEnd then some (token, next.skipBreak) else none

end EngineBench.Yaml
