-- The queue of tokens. A key is known to be one only when its colon is met, so tokens wait in
-- the queue as long as a key could still start at its head; indentation opens and closes
-- blocks.
import EngineBench.Yaml.Token

namespace EngineBench.Yaml

/-- A place where a key of one line may have started: the number of its token, counted from the
start, and where it stands. A required one must turn out to be a key. -/
structure Candidate where
  token : Nat
  required : Bool
  line : Nat
  column : Nat
  index : Nat

/-- The state of the lexer. `indent` is the column of the block that is open, plus one, and zero
outside all blocks; `candidates` has one place for each open flow collection and one for the
block around them. -/
structure Lexer where
  cursor : Cursor
  queue : List Token
  taken : Nat
  candidates : List (Option Candidate)
  keyAllowed : Bool
  indent : Nat
  outer : List Nat
  flow : Nat
  ended : Bool

namespace Lexer

def start (text : List Char) : Lexer where
  cursor := Cursor.start text
  queue := []
  taken := 0
  candidates := [none]
  keyAllowed := true
  indent := 0
  outer := []
  flow := 0
  ended := false

def push (l : Lexer) (t : Token) : Lexer := { l with queue := l.queue ++ [t] }

/-- Puts a token at the place in the queue that the token with this number has. -/
def insertAt (l : Lexer) (number : Nat) (t : Token) : Lexer :=
  let k := number - l.taken
  { l with queue := l.queue.take k ++ t :: l.queue.drop k }

/-! ## Candidates for keys -/

/-- A key lies on one line and has at most 1024 characters. -/
def isStale (l : Lexer) (k : Candidate) : Bool :=
  decide (k.line < l.cursor.line) || decide (k.index + 1024 < l.cursor.index)

/-- Drops the candidates that the cursor has left behind; a required one makes the text wrong. -/
def dropStale (l : Lexer) : Option Lexer :=
  if l.candidates.any fun k => k.any fun k => l.isStale k && k.required then none
  else some { l with candidates := l.candidates.map fun k => k.filter fun k => !l.isStale k }

def setCandidate (l : Lexer) (k : Option Candidate) : Lexer :=
  { l with candidates := match l.candidates with
      | _ :: rest => k :: rest
      | [] => [k] }

/-- Gives up the innermost candidate. -/
def removeCandidate (l : Lexer) : Option Lexer :=
  match l.candidates with
  | some k :: _ => if k.required then none else some (l.setCandidate none)
  | _ => some l

/-- Notes that a key may start here. -/
def saveCandidate (l : Lexer) : Option Lexer :=
  if l.keyAllowed then do
    let required := l.flow == 0 && l.indent == l.cursor.column + 1
    let l' ← l.removeCandidate
    return l'.setCandidate (some
      { token := l.taken + l.queue.length
        required := required
        line := l.cursor.line
        column := l.cursor.column
        index := l.cursor.index })
  else some l

/-! ## Indentation -/

/-- Opens a block at a column that lies deeper than the open one. The token that starts the block
goes to the end of the queue, or to the place of the token with the given number. -/
def openBlock (l : Lexer) (column : Nat) (number : Option Nat) (t : Token) : Lexer :=
  if l.flow = 0 && decide (l.indent < column + 1) then
    let l := { l with outer := l.indent :: l.outer, indent := column + 1 }
    match number with
    | some n => l.insertAt n t
    | none => l.push t
  else l

/-- Closes the blocks that are indented more than `indent`. -/
def closeBlocks (indent : Nat) : List Nat → Lexer → Lexer
  | [], l => l
  | o :: rest, l =>
    if indent < l.indent then
      closeBlocks indent rest { l.push .blockEnd with outer := rest, indent := o }
    else l

def unroll (l : Lexer) (indent : Nat) : Lexer :=
  if l.flow = 0 then closeBlocks indent l.outer l else l

/-! ## Between the tokens -/

/-- Moves over blanks, comments and line breaks. A tab is a blank only where no key may start. -/
def skipFrom (flow : Bool) :
    List Char → Nat → Nat → Nat → Bool → Bool → Cursor × Bool
  | '\r' :: '\n' :: s, line, _, index, keys, _ =>
    skipFrom flow s (line + 1) 0 (index + 2) (keys || !flow) false
  | c :: s, line, column, index, keys, comment =>
    if isBreak c then skipFrom flow s (line + 1) 0 (index + 1) (keys || !flow) false
    else if comment then skipFrom flow s line (column + 1) (index + 1) keys true
    else if c == ' ' || (c == '\t' && (flow || !keys)) then
      skipFrom flow s line (column + 1) (index + 1) keys false
    else if c == '\uFEFF' && column == 0 then
      skipFrom flow s line (column + 1) (index + 1) keys false
    else if c == '#' then skipFrom flow s line (column + 1) (index + 1) keys true
    else (⟨c :: s, line, column, index⟩, keys)
  | [], line, column, index, keys, _ => (⟨[], line, column, index⟩, keys)

def skipToToken (l : Lexer) : Lexer :=
  let c := l.cursor
  let (cursor, keys) := skipFrom (l.flow != 0) c.rest c.line c.column c.index l.keyAllowed false
  { l with cursor := cursor, keyAllowed := keys }

/-! ## Tokens -/

/-- Takes `n` characters of punctuation as a token. -/
def punctuation (l : Lexer) (n : Nat) (t : Token) (keyAllowed : Bool) : Lexer :=
  { l.push t with cursor := l.cursor.advance n, keyAllowed := keyAllowed }

/-- Ends the line, if one is open, all blocks, and the text. -/
def finish (l : Lexer) : Option Lexer := do
  let c := l.cursor
  let l := if c.column = 0 then l else { l with cursor := ⟨c.rest, c.line + 1, 0, c.index⟩ }
  let l ← (l.unroll 0).removeCandidate
  return { l.push .streamEnd with keyAllowed := false, ended := true }

def directiveToken (l : Lexer) : Option Lexer := do
  let l ← (l.unroll 0).removeCandidate
  let (token, cursor) ← directive l.cursor
  return { l.push token with cursor := cursor, keyAllowed := false }

def documentMark (l : Lexer) (t : Token) : Option Lexer := do
  let l ← (l.unroll 0).removeCandidate
  return l.punctuation 3 t false

def openFlow (l : Lexer) (t : Token) : Option Lexer := do
  let l ← l.saveCandidate
  let l := { l with candidates := none :: l.candidates, flow := l.flow + 1 }
  return l.punctuation 1 t true

def closeFlow (l : Lexer) (t : Token) : Option Lexer := do
  let l ← l.removeCandidate
  let l := if l.flow = 0 then l
    else { l with candidates := l.candidates.drop 1, flow := l.flow - 1 }
  return l.punctuation 1 t false

def flowEntryToken (l : Lexer) : Option Lexer := do
  let l ← l.removeCandidate
  return l.punctuation 1 .flowEntry true

def blockEntryToken (l : Lexer) : Option Lexer := do
  if l.flow = 0 && !l.keyAllowed then none
  else
    let l := l.openBlock l.cursor.column none .blockSequence
    let l ← l.removeCandidate
    return l.punctuation 1 .blockEntry true

def keyToken (l : Lexer) : Option Lexer := do
  if l.flow = 0 && !l.keyAllowed then none
  else
    let l := l.openBlock l.cursor.column none .blockMapping
    let l ← l.removeCandidate
    return l.punctuation 1 .key (l.flow == 0)

/-- At a colon the candidate, if there is one, turns out to be a key. -/
def valueToken (l : Lexer) : Option Lexer :=
  match l.candidates with
  | some k :: _ =>
    let l := (l.insertAt k.token .key).openBlock k.column (some k.token) .blockMapping
    some ((l.setCandidate none).punctuation 1 .value false)
  | _ =>
    if l.flow = 0 && !l.keyAllowed then none
    else
      let l := l.openBlock l.cursor.column none .blockMapping
      some (l.punctuation 1 .value (l.flow == 0))

def anchorToken (l : Lexer) (make : String → Token) : Option Lexer := do
  let l ← l.saveCandidate
  let (name, cursor) ← anchorName l.cursor
  return { l.push (make name) with cursor := cursor, keyAllowed := false }

def tagged (l : Lexer) : Option Lexer := do
  let l ← l.saveCandidate
  let (token, cursor) ← tagToken (l.flow != 0) l.cursor
  return { l.push token with cursor := cursor, keyAllowed := false }

def blockScalarToken (l : Lexer) (literal : Bool) : Option Lexer := do
  let l ← l.removeCandidate
  let (text, cursor) ← blockScalar literal l.indent l.cursor
  let token := Token.scalar (String.ofList text) (if literal then .literal else .folded)
  return { l.push token with cursor := cursor, keyAllowed := true }

def quotedToken (l : Lexer) (double : Bool) : Option Lexer := do
  let l ← l.saveCandidate
  let (text, cursor) ← quotedScalar double l.cursor
  let token := Token.scalar (String.ofList text) (if double then .double else .single)
  return { l.push token with cursor := cursor, keyAllowed := false }

def plainToken (l : Lexer) : Option Lexer := do
  let l ← l.saveCandidate
  let (text, cursor, newLine) ← plainScalar (l.flow != 0) l.indent l.cursor
  return { l.push (.scalar (String.ofList text) .plain) with
    cursor := cursor, keyAllowed := newLine }

/-- Characters that start no plain scalar. -/
def isIndicator (c : Char) : Bool :=
  "-?:,[]\x7b\x7d#&*!|>'\"%@`".toList.contains c

def startsPlain (l : Lexer) (c : Char) : Bool :=
  !(isIndicator c || isSpaceOrBreak c) ||
    (c == '-' && !(match l.cursor.peek 1 with | some d => isSpace d | none => false)) ||
    (l.flow == 0 && (c == '?' || c == ':') && !l.cursor.blankAt 1)

/-- Reads one more token, which may bring along the tokens of the blocks it opens or closes. -/
def fetch (l : Lexer) : Option Lexer := do
  let l ← l.skipToToken.dropStale
  let l := l.unroll (l.cursor.column + 1)
  let c := l.cursor
  match c.rest with
  | [] => l.finish
  | ch :: _ =>
    if c.column = 0 && ch == '%' then l.directiveToken
    else if c.atDocumentMark then
      l.documentMark (if ch == '-' then .documentStart else .documentEnd)
    else if ch == '[' then l.openFlow .flowSequence
    else if ch == '\x7b' then l.openFlow .flowMapping
    else if ch == ']' then l.closeFlow .flowSequenceEnd
    else if ch == '\x7d' then l.closeFlow .flowMappingEnd
    else if ch == ',' then l.flowEntryToken
    else if ch == '-' && c.blankAt 1 then l.blockEntryToken
    else if ch == '?' && (l.flow != 0 || c.blankAt 1) then l.keyToken
    else if ch == ':' && (l.flow != 0 || c.blankAt 1) then l.valueToken
    else if ch == '*' then l.anchorToken .alias
    else if ch == '&' then l.anchorToken .anchor
    else if ch == '!' then l.tagged
    else if ch == '|' && l.flow == 0 then l.blockScalarToken true
    else if ch == '>' && l.flow == 0 then l.blockScalarToken false
    else if ch == '\'' then l.quotedToken false
    else if ch == '"' then l.quotedToken true
    else if l.startsPlain ch then l.plainToken
    else none

/-! ## The head of the queue -/

/-- Whether the head of the queue may yet turn out to be the start of a key. -/
def headIsOpen (l : Lexer) : Bool :=
  l.candidates.any fun k => k.any fun k => k.token == l.taken

/-- Reads tokens until the head of the queue is settled. -/
def settle : Nat → Lexer → Option Lexer
  | 0, _ => none
  | fuel + 1, l =>
    if l.queue.isEmpty then (if l.ended then some l else l.fetch.bind (settle fuel))
    else do
      let l ← l.dropStale
      if l.headIsOpen then l.fetch.bind (settle fuel) else some l

/-- The next token and the lexer that has it at the head of its queue. Every token but the last
takes a character, so their number bounds the reading. -/
def peek (l : Lexer) : Option (Token × Lexer) := do
  let l ← settle (l.cursor.rest.length + 3) l
  return (l.queue.headD .streamEnd, l)

def drop (l : Lexer) : Lexer := { l with queue := l.queue.drop 1, taken := l.taken + 1 }

end Lexer

end EngineBench.Yaml
