-- Reading typed values out of a tree: texts, numbers, lists, maps and structures with fields.
import EngineBench.Data.Datum

namespace EngineBench.Data

/-- A reader that counts the references it has followed. -/
abbrev Decode (α : Type) := StateT Nat (Except Fault) α

namespace Decode

variable {σ α β δ : Type}

def malformed : Decode α := throw .malformed

def mismatch (m : Mismatch) : Decode α := throw (.mismatch m)

def lift (r : Except Mismatch α) : Decode α :=
  match r with
  | .ok a => pure a
  | .error m => mismatch m

/-- The tree that a reference stands for, and any other tree as it is. -/
def follow (d : Document σ) (t : Datum σ) : Decode (Datum σ) :=
  match t with
  | .ref id => do
    let followed ← get
    if d.followLimit < followed + 1 then malformed
    else
      set (followed + 1)
      match d.anchors.lookup id with
      | some target => pure target
      | none => malformed
  | t => pure t

/-- The complaint about a tree where something else was asked for. -/
def refuse (f : Format σ) (expected : String) : Datum σ → Decode α
  | .leaf s => mismatch (f.complaint s expected)
  | .seq _ => mismatch (.invalidType .sequence expected)
  | .map _ => mismatch (.invalidType .map expected)
  | .ref _ => malformed
  | .valueless => malformed
  | .torn => malformed

/-! ## Scalars -/

def text (f : Format σ) (d : Document σ) (expected : String) (t : Datum σ) : Decode String := do
  match ← follow d t with
  | .leaf s => lift (f.text s expected)
  | t => refuse f expected t

def bool (f : Format σ) (d : Document σ) (t : Datum σ) : Decode Bool := do
  match ← follow d t with
  | .leaf s => lift (f.bool s)
  | t => refuse f "a boolean" t

def natural (f : Format σ) (d : Document σ) (limit : Nat) (expected : String) (t : Datum σ) :
    Decode Nat := do
  match ← follow d t with
  | .leaf s => lift (f.natural s limit expected)
  | t => refuse f expected t

/-- Nothing where the document says null, and otherwise what `read` makes of the tree. -/
def optional (f : Format σ) (d : Document σ) (read : Datum σ → Decode α) (t : Datum σ) :
    Decode (Option α) := do
  match ← follow d t with
  | .leaf s => if ← lift (f.isNull s) then pure none else some <$> read (.leaf s)
  | .valueless => malformed
  | .torn => malformed
  | t => some <$> read t

/-! ## Lists and maps -/

def items (read : Datum σ → Decode α) : List (Datum σ) → Decode (List α)
  | [] => pure []
  | t :: rest => do
    let a ← read t
    return a :: (← items read rest)

def sequence (f : Format σ) (d : Document σ) (read : Datum σ → Decode α) (t : Datum σ) :
    Decode (List α) := do
  match ← follow d t with
  | .seq ts => items read ts
  | .leaf s => if f.isEmpty s then pure [] else refuse f "a sequence" (.leaf s)
  | t => refuse f "a sequence" t

/-- Reads the keys and values of a map in turn. -/
def entries (onEntry : Datum σ → Datum σ → δ → Decode δ) : List (Datum σ) → δ → Decode δ
  | [], acc => pure acc
  | [k], acc => onEntry k .torn acc
  | k :: v :: rest, acc => do entries onEntry rest (← onEntry k v acc)

/-- A table of texts, in ascending order of the keys; of two equal keys the later one counts. -/
def sortedInsert (key : String) (value : β) : List (String × β) → List (String × β)
  | [] => [(key, value)]
  | (k, v) :: rest =>
    if key = k then (key, value) :: rest
    else if key < k then (key, value) :: (k, v) :: rest
    else (k, v) :: sortedInsert key value rest

def table (f : Format σ) (d : Document σ) (t : Datum σ) : Decode (List (String × String)) := do
  let onEntry (k v : Datum σ) (acc : List (String × String)) : Decode (List (String × String)) := do
    let key ← text f d "a string" k
    let value ← text f d "a string" v
    return sortedInsert key value acc
  match ← follow d t with
  | .map ts => entries onEntry ts []
  | .leaf s => if f.isEmpty s then pure [] else refuse f "a map" (.leaf s)
  | t => refuse f "a map" t

/-! ## Structures -/

/-- A field of a structure that is being read into a draft of type `δ`: its name, whether the draft
has it, how to read it, and whether the structure can do without it where it is given as a list. -/
structure Field (σ δ : Type) where
  name : String
  isSet : δ → Bool
  read : Datum σ → δ → Decode δ
  hasDefault : Bool

/-- A key that names no field is passed over with its value, and a field may come only once. -/
def onField (f : Format σ) (d : Document σ) (fields : List (Field σ δ)) (k v : Datum σ)
    (draft : δ) : Decode δ := do
  let key ← text f d "field identifier" k
  match fields.find? (·.name == key) with
  | some field =>
    if field.isSet draft then mismatch (.duplicateField field.name)
    else field.read v draft
  | none => if v.isWhole then pure draft else malformed

/-- Reads the fields in order from the items of a list. -/
def fieldsInOrder (f : Format σ) (expected : String) (count : Nat) :
    List (Field σ δ) → List (Datum σ) → δ → Decode δ
  | [], [], draft => pure draft
  | [], _ :: _, draft => if f.strictLength then malformed else pure draft
  | field :: rest, t :: ts, draft => do
    fieldsInOrder f expected (count + 1) rest ts (← field.read t draft)
  | field :: rest, [], draft =>
    if field.hasDefault then fieldsInOrder f expected count rest [] draft
    else mismatch (.tooShort count expected)

/-- Reads a structure: the fields that are there into the draft, then the draft into the value. -/
def struct (f : Format σ) (d : Document σ) (expected : String) (fields : List (Field σ δ))
    (blank : δ) (finish : δ → Except Mismatch α) (t : Datum σ) : Decode α := do
  match ← follow d t with
  | .map ts => lift (finish (← entries (onField f d fields) ts blank))
  | .leaf s => if f.isEmpty s then lift (finish blank) else refuse f expected (.leaf s)
  | .seq ts =>
    if f.positional then lift (finish (← fieldsInOrder f expected 0 fields ts blank))
    else refuse f expected (.seq ts)
  | t => refuse f expected t

/-- A value in the making and the names of the fields that were read into it. -/
structure Draft (α : Type) where
  value : α
  seen : List String

/-- A field of a value in the making. -/
def field {α β : Type} (name : String) (hasDefault : Bool) (read : Datum σ → Decode β)
    (set : β → α → α) : Field σ (Draft α) where
  name := name
  isSet draft := draft.seen.contains name
  read t draft := do
    let b ← read t
    return ⟨set b draft.value, name :: draft.seen⟩
  hasDefault := hasDefault

/-- The finished value, if every field that it cannot do without was read. -/
def finished {α : Type} (needed : List String) (draft : Draft α) : Except Mismatch α :=
  match needed.find? fun name => !draft.seen.contains name with
  | some name => .error (.missingField name)
  | none => .ok draft.value

/-- Reads a structure from the fields that are there, over a blank value. -/
def record {α : Type} (f : Format σ) (d : Document σ) (expected : String)
    (fields : List (Field σ (Draft α))) (needed : List String) (blank : α) (t : Datum σ) :
    Decode α :=
  struct f d expected fields ⟨blank, []⟩ (finished needed) t

end Decode

end EngineBench.Data
