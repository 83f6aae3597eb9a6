-- The texts of scalars: plain, in single or double quotes, and as blocks of lines. Every reader
-- here starts at the scalar and ends behind it, or gives nothing if the rules are broken.
import EngineBench.Yaml.Cursor

namespace EngineBench.Yaml

inductive Style where
  | plain
  | single
  | double
  | literal
  | folded
  deriving DecidableEq, Repr

/-! ## Gaps between the words of a scalar -/

/-- Blanks and line breaks inside a scalar: the blanks before the first break, whether a break was
met, the first break if it counts, and the breaks after it in reverse. -/
structure Gap where
  spaces : List Char
  broken : Bool
  first : Option Char
  others : List Char

namespace Gap

def empty : Gap := ⟨[], false, none, []⟩

/-- The gap behind a line break that a backslash has taken away. -/
def continued : Gap := ⟨[], true, none, []⟩

def addBreak (g : Gap) (c : Char) : Gap :=
  if g.broken then { g with others := c :: g.others } else ⟨[], true, some c, []⟩

def addSpace (g : Gap) (c : Char) : Gap :=
  if g.broken then g else { g with spaces := c :: g.spaces }

/-- What a gap leaves in the text of the scalar: a lone line feed becomes a blank, and the first
of several is dropped. -/
def text (g : Gap) : List Char :=
  if g.broken then
    match g.first with
    | some '\n' => if g.others.isEmpty then [' '] else g.others.reverse
    | some c => c :: g.others.reverse
    | none => g.others.reverse
  else g.spaces.reverse

/-- Reads a gap. A tab before column `limit` at the start of a line is refused. -/
def read (limit : Nat) : List Char → Nat → Nat → Nat → Gap → Option (Gap × Cursor)
  | '\r' :: '\n' :: s, line, _, index, g =>
    read limit s (line + 1) 0 (index + 2) (g.addBreak '\n')
  | c :: s, line, column, index, g =>
    if isSpace c then
      if g.broken && decide (column < limit) && c == '\t' then none
      else read limit s line (column + 1) (index + 1) (g.addSpace c)
    else if isBreak c then read limit s (line + 1) 0 (index + 1) (g.addBreak (lineEnd c))
    else some (g, ⟨c :: s, line, column, index⟩)
  | [], line, column, index, g => some (g, ⟨[], line, column, index⟩)

def readAt (limit : Nat) (c : Cursor) (g : Gap) : Option (Gap × Cursor) :=
  read limit c.rest c.line c.column c.index g

end Gap

/-! ## Plain scalars -/

/-- The characters up to the next blank or the end of the scalar. Inside a flow collection a colon
right before an indicator is refused. -/
def plainRun (flow : Bool) : List Char → Option (List Char)
  | [] => some []
  | c :: s =>
    if isSpaceOrBreak c then some []
    else
      let before (p : Char → Bool) : Bool := match s with
        | d :: _ => p d
        | [] => false
      let blankNext : Bool := match s with
        | d :: _ => isSpaceOrBreak d
        | [] => true
      if flow && c == ':' && before (fun d => isFlowIndicator d || d == '?') then none
      else if (c == ':' && blankNext) || (flow && isFlowIndicator c) then some []
      else (plainRun flow s).map (c :: ·)

/-- Reads on in a plain scalar behind the text `done` and the gap `g`. The result also tells
whether a line break was met last. -/
def plainFrom (flow : Bool) (indent : Nat) :
    Nat → Cursor → List Char → Gap → Option (List Char × Cursor × Bool)
  | 0, c, done, g => some (done, c, g.broken)
  | fuel + 1, c, done, g =>
    if c.atDocumentMark || c.isAt 0 '#' then some (done, c, g.broken)
    else
      match plainRun flow c.rest with
      | none => none
      | some run =>
        let behind := c.advance run.length
        let done := if run.isEmpty then done else done ++ g.text ++ run
        let g := if run.isEmpty then g else Gap.empty
        match behind.rest with
        | ch :: _ =>
          if isSpaceOrBreak ch then
            match Gap.readAt indent behind g with
            | none => none
            | some (g, next) =>
              if !flow && decide (next.column < indent) then some (done, next, g.broken)
              else plainFrom flow indent fuel next done g
          else some (done, behind, g.broken)
        | [] => some (done, behind, g.broken)

/-- Reads a plain scalar that must stay at or behind column `indent`. -/
def plainScalar (flow : Bool) (indent : Nat) (c : Cursor) : Option (List Char × Cursor × Bool) :=
  plainFrom flow indent (c.rest.length + 1) c [] Gap.empty

/-! ## Quoted scalars -/

/-- A stretch of a quoted scalar without gaps: its text, how many characters it takes, and whether
a backslash before a line break ended it. -/
structure Stretch where
  text : List Char
  taken : Nat
  continued : Bool

namespace Stretch

def stop : Stretch := ⟨[], 0, false⟩

def add (s : Stretch) (c : Char) (n : Nat) : Stretch := ⟨c :: s.text, s.taken + n, s.continued⟩

end Stretch

def singleStretch : List Char → Stretch
  | '\'' :: '\'' :: s => (singleStretch s).add '\'' 2
  | c :: s => if c == '\'' || isSpaceOrBreak c then Stretch.stop else (singleStretch s).add c 1
  | [] => Stretch.stop

def hexDigitValue (c : Char) : Option Nat :=
  if '0' ≤ c && c ≤ '9' then some (c.toNat - 48)
  else if 'a' ≤ c && c ≤ 'f' then some (c.toNat - 87)
  else if 'A' ≤ c && c ≤ 'F' then some (c.toNat - 55)
  else none

/-- The character of a number in hexadecimal digits; surrogates are none. -/
def hexChar (ds : List Char) : Option Char := do
  let n ← ds.foldlM (fun n d => (hexDigitValue d).map (n * 16 + ·)) 0
  if (0xD800 ≤ n && n ≤ 0xDFFF) || 0x10FFFF < n then none else some (Char.ofNat n)

def namedEscape (c : Char) : Option Char :=
  match c with
  | '0' => some '\x00'
  | 'a' => some '\x07'
  | 'b' => some '\x08'
  | 't' => some '\t'
  | '\t' => some '\t'
  | 'n' => some '\n'
  | 'v' => some '\x0b'
  | 'f' => some '\x0c'
  | 'r' => some '\r'
  | 'e' => some '\x1b'
  | ' ' => some ' '
  | '"' => some '"'
  | '/' => some '/'
  | '\\' => some '\\'
  | 'N' => some '\u0085'
  | '_' => some '\u00a0'
  | 'L' => some '\u2028'
  | 'P' => some '\u2029'
  | _ => none

def doubleStretch : List Char → Option Stretch
  | [] => some Stretch.stop
  | ['\\'] => none
  | '\\' :: 'x' :: a :: b :: s => do
    let c ← hexChar [a, b]
    return (← doubleStretch s).add c 4
  | '\\' :: 'u' :: a :: b :: c :: d :: s => do
    let ch ← hexChar [a, b, c, d]
    return (← doubleStretch s).add ch 6
  | '\\' :: 'U' :: a :: b :: c :: d :: e :: f :: g :: h :: s => do
    let ch ← hexChar [a, b, c, d, e, f, g, h]
    return (← doubleStretch s).add ch 10
  | '\\' :: c :: s =>
    if isBreak c then some ⟨[], 1, true⟩
    else
      match namedEscape c with
      | some e => (doubleStretch s).map (·.add e 2)
      | none => none
  | c :: s =>
    if c == '"' || isSpaceOrBreak c then some Stretch.stop
    else (doubleStretch s).map (·.add c 1)

/-- Reads on in a quoted scalar up to its closing quote. -/
def quotedFrom (double : Bool) : Nat → Cursor → List Char → Option (List Char × Cursor)
  | 0, _, _ => none
  | fuel + 1, c, done =>
    if c.atDocumentMark || c.atEnd then none
    else
      match (if double then doubleStretch c.rest else some (singleStretch c.rest)) with
      | none => none
      | some stretch =>
        let behind := c.advance stretch.taken
        let done := done ++ stretch.text
        if !stretch.continued && behind.isAt 0 (if double then '"' else '\'') then
          some (done, behind.advance 1)
        else
          let (c, g) :=
            if stretch.continued then (behind.skipBreak, Gap.continued) else (behind, Gap.empty)
          match Gap.readAt 0 c g with
          | none => none
          | some (g, next) => quotedFrom double fuel next (done ++ g.text)

/-- Reads a quoted scalar from its opening quote. -/
def quotedScalar (double : Bool) (c : Cursor) : Option (List Char × Cursor) :=
  quotedFrom double (c.rest.length + 1) (c.advance 1) []

/-! ## Block scalars -/

/-- What becomes of the line breaks at the end of a block. -/
inductive Chomp where
  | strip
  | clip
  | keep
  deriving DecidableEq, Repr

/-- Reads indentation and empty lines up to the next line with content: the breaks, the deepest
indentation met, and the place. An `indent` of zero is not known yet; a tab in its place is
refused. -/
def blockGap (indent : Nat) :
    List Char → Nat → Nat → Nat → Nat → List Char → Option (List Char × Nat × Cursor)
  | '\r' :: '\n' :: s, line, column, index, deepest, breaks =>
    blockGap indent s (line + 1) 0 (index + 2) (max deepest column) ('\n' :: breaks)
  | c :: s, line, column, index, deepest, breaks =>
    let open_ := indent == 0 || decide (column < indent)
    if c == ' ' && open_ then
      blockGap indent s line (column + 1) (index + 1) (max deepest (column + 1)) breaks
    else if c == '\t' && open_ then none
    else if isBreak c then
      blockGap indent s (line + 1) 0 (index + 1) (max deepest column) (lineEnd c :: breaks)
    else some (breaks.reverse, deepest, ⟨c :: s, line, column, index⟩)
  | [], line, column, index, deepest, breaks =>
    some (breaks.reverse, deepest, ⟨[], line, column, index⟩)

def blockGapAt (indent : Nat) (c : Cursor) : Option (List Char × Nat × Cursor) :=
  blockGap indent c.rest c.line c.column c.index 0 []

/-- Reads the lines of a block. `last` is the break of the line before, `breaks` are the empty lines
after it, and `indented` tells whether that line started with a blank. -/
def blockLines (literal : Bool) (chomp : Chomp) (indent : Nat) :
    Nat → Cursor → List Char → List Char → List Char → Bool → Option (List Char × Cursor)
  | 0, _, _, _, _, _ => none
  | fuel + 1, c, done, last, breaks, indented =>
    if c.column == indent && !c.atEnd then
      let indentedNow := match c.rest with
        | ch :: _ => isSpace ch
        | [] => false
      let joint :=
        if !literal && last.head? == some '\n' && !indented && !indentedNow then
          (if breaks.isEmpty then [' '] else [])
        else last
      let line := c.rest.takeWhile fun ch => !isBreak ch
      let behind := c.advance line.length
      match blockGapAt indent behind.skipBreak with
      | none => none
      | some (breaks', _, next) =>
        blockLines literal chomp indent fuel next (done ++ joint ++ breaks ++ line)
          behind.breakText breaks' indentedNow
    else
      let tail := match chomp with
        | .strip => []
        | .clip => last
        | .keep => last ++ breaks
      some (done ++ tail, c)

/-- The indicators behind the sign of a block: chomping, and an indentation above zero. -/
def blockHeader (s : List Char) : Option (Chomp × Nat × Nat) :=
  let chompOf (c : Char) : Option Chomp :=
    if c == '+' then some .keep else if c == '-' then some .strip else none
  match s with
  | c :: rest =>
    match chompOf c with
    | some chomp =>
      match rest with
      | d :: _ =>
        if d == '0' then none
        else if d.isDigit then some (chomp, d.toNat - 48, 2)
        else some (chomp, 0, 1)
      | [] => some (chomp, 0, 1)
    | none =>
      if c == '0' then none
      else if c.isDigit then
        match rest with
        | d :: _ =>
          match chompOf d with
          | some chomp => some (chomp, c.toNat - 48, 2)
          | none => some (.clip, c.toNat - 48, 1)
        | [] => some (.clip, c.toNat - 48, 1)
      else some (.clip, 0, 0)
  | [] => some (.clip, 0, 0)

/-- Reads a block scalar from its sign. `parent` is the indentation around it, one more than the
column, so that zero stands for no indentation at all. -/
def blockScalar (literal : Bool) (parent : Nat) (c : Cursor) : Option (List Char × Cursor) :=
  let c := c.advance 1
  match blockHeader c.rest with
  | none => none
  | some (chomp, increment, taken) =>
    let c := (c.advance taken).skipWhile isSpace
    let c := if c.isAt 0 '#' then c.skipWhile (fun ch => !isBreak ch) else c
    if !c.breakOrEnd then none
    else
      let given := if increment = 0 then 0 else (parent - 1) + increment
      match blockGapAt given c.skipBreak with
      | none => none
      | some (breaks, deepest, next) =>
        let indent := if given = 0 then max (max deepest parent) 1 else given
        blockLines literal chomp indent (c.rest.length + 1) next [] [] breaks false

end EngineBench.Yaml
