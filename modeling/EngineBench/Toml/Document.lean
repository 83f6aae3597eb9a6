-- TOML documents: values, headers and the statements of a document from the top down, and what
-- the readers of typed values ask of TOML scalars.
import EngineBench.Data.Decode
import EngineBench.Toml.Table

namespace EngineBench.Toml

open Data (Found Mismatch)

/-! ## Values -/

/-- Reads the items of an array behind its bracket. A comma may stand behind the last one. -/
def arrayItems (value : Reader Item) : Nat → List Char → Option (List Item × List Char)
  | 0, _ => none
  | fuel + 1, s =>
    match skipFree false s with
    | ']' :: rest => some ([], rest)
    | s => do
      let (item, rest) ← value s
      match skipFree false rest with
      | ',' :: rest => do
        let (items, rest) ← arrayItems value fuel rest
        some (item :: items, rest)
      | ']' :: rest => some ([item], rest)
      | _ => none

/-- Reads a key with its value. -/
def keyValue (value : Reader Item) (s : List Char) :
    Option ((List String × Item) × List Char) := do
  let (names, rest) ← key s
  let rest ← expect '=' rest
  let (item, rest) ← value (skipBlanks rest)
  some ((names, item), rest)

/-- Reads the entries of a table in braces, which stands on one line, behind its first key. -/
def braceEntries (value : Reader Item) :
    Nat → Entries → List Char → Option (Entries × List Char)
  | 0, _, _ => none
  | fuel + 1, entries, s => do
    let ((names, item), rest) ← keyValue value s
    let entries ← assignKey names item entries
    match skipBlanks rest with
    | ',' :: rest => braceEntries value fuel entries rest
    | '}' :: rest => some (entries, rest)
    | _ => none

/-- The name under which a date or time shows its text where a map is read. -/
def dateName : String := "$__toml_private_datetime"

/-- A date or time counts as a map that holds its text. -/
def scalarTree : Scalar → Data.Datum Scalar
  | .datetime text => .map [.leaf (.string dateName), .leaf (.string text)]
  | x => .leaf x

/-- Reads a value with at most `depth` brackets and braces within each other. -/
def value : Nat → Reader Item
  | depth, '[' :: s =>
    match depth with
    | 0 => none
    | depth + 1 => do
      let (items, rest) ← arrayItems (value depth) (s.length + 1) s
      some (.value (.seq (items.map Item.tree)), rest)
  | depth, '\x7b' :: s =>
    match depth with
    | 0 => none
    | depth + 1 =>
      match skipBlanks s with
      | '}' :: rest => some (.value (.map []), rest)
      | s => do
        let (entries, rest) ← braceEntries (value depth) (s.length + 1) [] s
        some (.value (.map (entryTrees entries)), rest)
  | _, s => (scalar s).map fun (x, rest) => (.value (scalarTree x), rest)

/-- Brackets and braces may stand within each other 79 times. -/
def depthLimit : Nat := 79

/-! ## Statements -/

/-- The text behind the end of a line on which nothing but a comment is left. -/
def endOfLine (s : List Char) : Option (List Char) :=
  match skipComment (skipBlanks s) with
  | [] => some []
  | s => lineEnd? s

/-- A document so far: its tables, and the path of the table that gets the next values. -/
structure Draft where
  root : Entries
  path : List String

/-- Reads a header and the rest of its line. -/
def header (d : Draft) (s : List Char) : Option (Draft × List Char) :=
  match s with
  | '[' :: '[' :: s => do
    let (names, rest) ← key s
    let rest ← endOfLine (← expect ']' (← expect ']' rest))
    let root ← within names.dropLast (extendTables (← names.getLast?)) d.root
    some (⟨root, names⟩, rest)
  | '[' :: s => do
    let (names, rest) ← key s
    let rest ← endOfLine (← expect ']' rest)
    let root ← within names.dropLast (stateTable (← names.getLast?)) d.root
    some (⟨root, names⟩, rest)
  | _ => none

def statement (d : Draft) (s : List Char) : Option (Draft × List Char) :=
  match s with
  | [] => none
  | '[' :: _ => header d s
  | c :: _ =>
    if c == '#' || c == '\n' || c == '\r' then (endOfLine s).map (d, ·)
    else do
      let ((names, item), rest) ← keyValue (value depthLimit) s
      let rest ← endOfLine rest
      let root ← within d.path (assignKey names item) d.root
      some (⟨root, d.path⟩, rest)

def statements : Nat → Draft → List Char → Option Entries
  | 0, _, _ => none
  | fuel + 1, d, s =>
    match skipBlanks s with
    | [] => some d.root
    | s => do
      let (d, rest) ← statement d s
      statements fuel d rest

/-- The tables of a document. A mark of the byte order in front of it is passed over. -/
def read (text : List Char) : Option Entries :=
  let s := match text with
    | '\uFEFF' :: s => s
    | s => s
  statements (s.length + 1) ⟨[], []⟩ s

/-! ## Typed values -/

def found : Scalar → Found
  | .string s => .string s
  | .integer n => .integer n
  | .float x => .float (Number.plainText x)
  | .bool b => .bool b
  | .datetime _ => .map

/-- TOML scalars are what they are, and nothing stands for null. -/
def format : Data.Format Scalar where
  text s expected :=
    match s with
    | .string text => .ok text
    | s => .error (.invalidType (found s) expected)
  bool s :=
    match s with
    | .bool b => .ok b
    | s => .error (.invalidType (found s) "a boolean")
  natural s limit expected :=
    match s with
    | .integer n =>
      if 0 ≤ n && n ≤ limit then .ok n.toNat else .error (.invalidValue (.integer n) expected)
    | s => .error (.invalidType (found s) expected)
  isNull _ := .ok false
  isEmpty _ := false
  complaint s expected := .invalidType (found s) expected
  positional := true
  strictLength := false

/-- Reads a typed value from a document. -/
def decode {α : Type} (read : Data.Document Scalar → Data.Datum Scalar → Data.Decode α)
    (text : List Char) : Except Data.Fault α :=
  match Toml.read text with
  | none => .error .malformed
  | some entries =>
    let root := Data.Datum.map (entryTrees entries)
    match (read ⟨root, [], 0⟩ root).run 0 with
    | .ok (a, _) => .ok a
    | .error e => .error e

end EngineBench.Toml
