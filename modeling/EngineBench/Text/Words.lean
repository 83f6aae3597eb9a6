-- The words of a command line as a POSIX shell would cut it: blanks between words,
-- single and double quotes, backslashes, and comments that start a word.
namespace EngineBench.Text.Words

/-- Where the reader stands: between two words, in a comment, in a bare word, or inside quotes. -/
inductive Place where
  | gap
  | comment
  | bare
  | single
  | double
  deriving DecidableEq, Repr

def isGap (c : Char) : Bool := c == ' ' || c == '\t' || c == '\n'

/-- Inside double quotes a backslash takes away the meaning of these characters only. -/
def isSpecialInQuotes (c : Char) : Bool := c == '$' || c == '\x60' || c == '"' || c == '\\'

/-- Reads on from a place, with the word read so far in reverse. Nothing is left open at the end
of a good text. -/
def read : Place → List Char → List Char → Option (List (List Char))
  | .gap, _, [] => some []
  | .comment, _, [] => some []
  | .bare, word, [] => some [word.reverse]
  | .single, _, [] => none
  | .double, _, [] => none
  | .comment, _, c :: s => read (if c = '\n' then .gap else .comment) [] s
  | .single, word, c :: s => if c = '\'' then read .bare word s else read .single (c :: word) s
  | .double, _, ['\\'] => none
  | .double, word, '\\' :: c :: s =>
    if isSpecialInQuotes c then read .double (c :: word) s
    else if c = '\n' then read .double word s
    else read .double (c :: '\\' :: word) s
  | .double, word, c :: s => if c = '"' then read .bare word s else read .double (c :: word) s
  | .gap, _, ['\\'] => none
  | .bare, _, ['\\'] => none
  | .gap, _, '\\' :: c :: s => read .bare (if c = '\n' then [] else [c]) s
  | .bare, word, '\\' :: c :: s => read .bare (if c = '\n' then word else c :: word) s
  | .gap, _, c :: s =>
    if isGap c then read .gap [] s
    else if c = '#' then read .comment [] s
    else if c = '"' then read .double [] s
    else if c = '\'' then read .single [] s
    else read .bare [c] s
  | .bare, word, c :: s =>
    if isGap c then (read .gap [] s).map (word.reverse :: ·)
    else if c = '"' then read .double word s
    else if c = '\'' then read .single word s
    else read .bare (c :: word) s

/-- The words of a command line, or `none` when a quote or a backslash is left open. -/
def split (line : String) : Option (List String) :=
  (read .gap [] line.toList).map (·.map String.ofList)

end EngineBench.Text.Words
