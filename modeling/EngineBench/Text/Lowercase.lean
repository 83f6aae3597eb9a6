-- Lowercase of a text. Every character has one lowercase wherever it stands, but a capital sigma
-- has two.
import EngineBench.Text.CasedTable
import EngineBench.Text.CaseTable

namespace EngineBench.Text

def CaseRun.holds (r : CaseRun) (n : Nat) : Bool :=
  r.first ≤ n && n ≤ r.last && (n - r.first) % r.step == 0

/-- The lowercase of one character: the dotted capital I becomes two characters, every other
character one. -/
def lowerChar (c : Char) : List Char :=
  let n := c.toNat
  if n < 0x80 then [c.toLower]
  else if n = 0x130 then ['i', '\u0307']
  else match caseRuns.find? (·.holds n) with
    | some r => [Char.ofNat (n + r.toLower).toNat]
    | none => [c]

/-! ## Sigma -/

def inRanges (ranges : List (Nat × Nat)) (c : Char) : Bool :=
  ranges.any fun r => r.1 ≤ c.toNat && c.toNat ≤ r.2

/-- Whether a text starts with a letter of a word, what has no letter case of its own aside. -/
def opensWithLetter (s : List Char) : Bool :=
  match s.dropWhile (inRanges caseIgnorableRanges) with
  | c :: _ => inRanges casedRanges c
  | [] => false

/-- The lowercase of a capital sigma between two texts, the first one given backwards: the last
letter of a word has a form of its own. -/
def lowerSigma (before after : List Char) : Char :=
  if opensWithLetter before && !opensWithLetter after then '\u03C2' else '\u03C3'

/-! ## Texts -/

/-- The lowercase of a text behind another one, which is given backwards. -/
def lowerBehind (before : List Char) : List Char → List Char
  | [] => []
  | c :: s =>
    (if c = '\u03A3' then [lowerSigma before s] else lowerChar c) ++ lowerBehind (c :: before) s

def lowercase (s : List Char) : List Char := lowerBehind [] s

/-- Whether a text is a given word, letter case aside. The word itself is in lowercase. -/
def isWord (s : String) (word : String) : Bool := lowercase s.toList == word.toList

end EngineBench.Text
