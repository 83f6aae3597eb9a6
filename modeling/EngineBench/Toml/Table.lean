-- Tables of a TOML document while it is read, and the rules on who may add to which table: a
-- table is stated once, and a dotted key adds only to tables that dotted keys have made.
import EngineBench.Data.Datum
import EngineBench.Toml.Text

namespace EngineBench.Toml

/-- How a table came to be: by its own header or as a value in braces, on the way to the header of
a table inside it, or on the way to the last name of a dotted key. -/
inductive Origin where
  | stated
  | passed
  | dotted
  deriving DecidableEq, Repr

inductive Item where
  | value (t : Data.Datum Scalar)
  | table (origin : Origin) (entries : List (String × Item))
  /-- An array of tables, the newest at the end. -/
  | tables (all : List (List (String × Item)))

/-- Names and what they stand for, in the order in which they were first used. -/
abbrev Entries := List (String × Item)

mutual

def Item.tree : Item → Data.Datum Scalar
  | .value t => t
  | .table _ entries => .map (entryTrees entries)
  | .tables all => .seq (tableTrees all)

def entryTrees : List (String × Item) → List (Data.Datum Scalar)
  | [] => []
  | (k, i) :: rest => .leaf (.string k) :: i.tree :: entryTrees rest

def tableTrees : List (List (String × Item)) → List (Data.Datum Scalar)
  | [] => []
  | entries :: rest => .map (entryTrees entries) :: tableTrees rest

end

def hasName (name : String) (entries : Entries) : Bool := entries.any (·.1 == name)

/-- Replaces what a name stands for and keeps its place. -/
def setName (name : String) (item : Item) (entries : Entries) : Entries :=
  entries.map fun e => if e.1 == name then (name, item) else e

def withLast (f : Entries → Option Entries) (all : List Entries) : Option (List Entries) := do
  let inner ← f (all.getLast?.getD [])
  some (all.dropLast ++ [inner])

/-! ## Values -/

/-- Adds a value under a dotted key: the names on the way, then the last name. -/
def assign : List String → String → Item → Entries → Option Entries
  | [], last, item, entries =>
    if hasName last entries then none else some (entries ++ [(last, item)])
  | name :: way, last, item, entries =>
    match entries.lookup name with
    | none => do some (entries ++ [(name, .table .dotted (← assign way last item []))])
    | some (.table .dotted inner) => do
      some (setName name (.table .dotted (← assign way last item inner)) entries)
    | some (.table .passed inner) =>
      if way.isEmpty then none
      else do some (setName name (.table .passed (← assign way last item inner)) entries)
    | some (.tables all) =>
      if way.isEmpty then none
      else do some (setName name (.tables (← withLast (assign way last item) all)) entries)
    | some _ => none

/-- Adds a value under the names of its key. -/
def assignKey (names : List String) (item : Item) (entries : Entries) : Option Entries := do
  assign names.dropLast (← names.getLast?) item entries

/-! ## Headers -/

/-- Changes the table at the end of a path. Of an array of tables the newest one is meant, and
tables that are not there yet come to be. -/
def within : List String → (Entries → Option Entries) → Entries → Option Entries
  | [], f, entries => f entries
  | name :: way, f, entries =>
    match entries.lookup name with
    | none => do some (entries ++ [(name, .table .passed (← within way f []))])
    | some (.table origin inner) => do
      some (setName name (.table origin (← within way f inner)) entries)
    | some (.tables all) => do
      some (setName name (.tables (← withLast (within way f) all)) entries)
    | some (.value _) => none

/-- States a table. One that was only passed so far moves to the end with all that it holds. -/
def stateTable (name : String) (entries : Entries) : Option Entries :=
  match entries.lookup name with
  | none => some (entries ++ [(name, .table .stated [])])
  | some (.table .passed inner) =>
    some (entries.filter (·.1 != name) ++ [(name, .table .stated inner)])
  | some _ => none

/-- Adds an empty table to an array of tables. -/
def extendTables (name : String) (entries : Entries) : Option Entries :=
  match entries.lookup name with
  | none => some (entries ++ [(name, .tables [[]])])
  | some (.tables all) => some (setName name (.tables (all ++ [[]])) entries)
  | some _ => none

end EngineBench.Toml
