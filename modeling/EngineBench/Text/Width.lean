-- How many columns of a terminal a text takes.
import EngineBench.Text.WidthTable

namespace EngineBench.Text

def charWidth (c : Char) : Nat :=
  let n := c.toNat
  let inside (r : Nat × Nat) : Bool := r.1 ≤ n && n ≤ r.2
  if n < 0x300 then 1
  else if zeroWidthRanges.any inside then 0
  else if wideRanges.any inside then 2
  else 1

/-- Columns of a text without control sequences. -/
def plainWidth (s : List Char) : Nat := (s.map charWidth).foldl (· + ·) 0

/-! ## Control sequences -/

def isSequenceIntro (c : Char) : Bool :=
  c == '[' || c == '(' || c == ')' || c == '#' || c == ';' || c == '?'

/-- The last character of a control sequence. -/
def isSequenceEnd (c : Char) : Bool :=
  c.isDigit || ('A' ≤ c && c ≤ 'P') || c == 'R' || c == 'Z' || c == 'c' ||
    ('f' ≤ c && c ≤ 'n') || c == 'q' || c == 'r' || c == 'y' || c == '=' || c == '>' || c == '<'

/-- The parameters at the front of a text: numbers of up to four digits with semicolons between
them. The number in front may have `room` more digits. -/
def parameters : Nat → List Char → List Char
  | _, [] => []
  | 0, c :: s => if c == ';' then c :: parameters 4 s else []
  | room + 1, c :: s =>
    if c.isDigit then c :: parameters room s
    else if c == ';' then c :: parameters 4 s
    else []

/-- The length of the control sequence after its escape character, if one stands there: intro
characters, the longest run of parameters that leaves an end character, and the end. Without an end
character after the parameters their last digit serves as one. -/
def sequenceLength (s : List Char) : Option Nat :=
  let intro := (s.takeWhile isSequenceIntro).length
  let params := parameters 4 (s.drop intro)
  match s.drop (intro + params.length) with
  | c :: _ => if isSequenceEnd c then some (intro + params.length + 1) else shorter intro params
  | [] => shorter intro params
where
  shorter (intro : Nat) (params : List Char) : Option Nat :=
    let kept := (params.reverse.dropWhile (fun c => !isSequenceEnd c)).length
    if kept = 0 then none else some (intro + kept)

/-- Marks every character with whether it belongs to a control sequence. `skip` characters of one
are still to come. -/
def markSequences : Nat → List Char → List (Char × Bool)
  | _, [] => []
  | skip + 1, c :: s => (c, true) :: markSequences skip s
  | 0, c :: s =>
    if c == '\x1b' || c == '\u009b' then
      match sequenceLength s with
      | some n => (c, true) :: markSequences n s
      | none => (c, false) :: markSequences 0 s
    else (c, false) :: markSequences 0 s

/-- Columns of a text, control sequences not counted. -/
def width (s : List Char) : Nat :=
  plainWidth (((markSequences 0 s).filter (!·.2)).map (·.1))

end EngineBench.Text
