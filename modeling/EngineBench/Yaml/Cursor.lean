-- A place in a YAML text, with the classes of characters that the lexical rules speak of.
namespace EngineBench.Yaml

/-! ## Classes of characters -/

def isSpace (c : Char) : Bool := c == ' ' || c == '\t'

/-- The characters that end a line. -/
def isBreak (c : Char) : Bool :=
  c == '\n' || c == '\r' || c == '\u0085' || c == '\u2028' || c == '\u2029'

def isSpaceOrBreak (c : Char) : Bool := isSpace c || isBreak c

/-- The characters of names: anchors, handles and directives. -/
def isNameChar (c : Char) : Bool := c.isAlphanum || c == '_' || c == '-'

def isFlowIndicator (c : Char) : Bool :=
  c == ',' || c == '[' || c == ']' || c == '\x7b' || c == '\x7d'

/-- The characters that a text may hold at all. -/
def isAllowed (c : Char) : Bool :=
  let n := c.toNat
  n == 9 || n == 10 || n == 13 || (0x20 ≤ n && n ≤ 0x7E) || n == 0x85 ||
    (0xA0 ≤ n && n ≤ 0xFFFD) || 0x10000 ≤ n

/-- A line ends with a line feed, whatever ended it in the text; the two separators of Unicode
stay as they are. -/
def lineEnd (c : Char) : Char := if c == '\u2028' || c == '\u2029' then c else '\n'

/-! ## The place -/

structure Cursor where
  rest : List Char
  line : Nat
  column : Nat
  index : Nat

namespace Cursor

def start (text : List Char) : Cursor := ⟨text, 0, 0, 0⟩

def peek (c : Cursor) (n : Nat) : Option Char := c.rest[n]?

def atEnd (c : Cursor) : Bool := c.rest.isEmpty

def isAt (c : Cursor) (n : Nat) (ch : Char) : Bool := c.peek n == some ch

/-- Whether a blank, a line break or the end of the text stands `n` characters on. -/
def blankAt (c : Cursor) (n : Nat) : Bool :=
  match c.peek n with
  | some ch => isSpaceOrBreak ch
  | none => true

def breakOrEnd (c : Cursor) : Bool :=
  match c.rest with
  | ch :: _ => isBreak ch
  | [] => true

/-- Moves over characters none of which ends a line. -/
def advance (c : Cursor) (n : Nat) : Cursor :=
  ⟨c.rest.drop n, c.line, c.column + n, c.index + n⟩

/-- Moves over the characters that satisfy `p`, none of which ends a line. -/
def skipWhile (c : Cursor) (p : Char → Bool) : Cursor := c.advance (c.rest.takeWhile p).length

/-- Moves over one line break, if one stands there. -/
def skipBreak (c : Cursor) : Cursor :=
  match c.rest with
  | '\r' :: '\n' :: rest => ⟨rest, c.line + 1, 0, c.index + 2⟩
  | ch :: rest => if isBreak ch then ⟨rest, c.line + 1, 0, c.index + 1⟩ else c
  | [] => c

/-- The line break that stands there, as the text of a scalar has it. -/
def breakText (c : Cursor) : List Char :=
  match c.rest with
  | ch :: _ => if isBreak ch then [lineEnd ch] else []
  | [] => []

/-- Whether a document mark, `---` or `...`, stands at the start of a line. -/
def atDocumentMark (c : Cursor) : Bool :=
  c.column == 0 && c.blankAt 3 &&
    match c.rest with
    | '-' :: '-' :: '-' :: _ => true
    | '.' :: '.' :: '.' :: _ => true
    | _ => false

end Cursor

end EngineBench.Yaml
