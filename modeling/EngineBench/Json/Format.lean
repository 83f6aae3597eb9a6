-- What the readers of typed values ask of JSON scalars.
import EngineBench.Data.Decode
import EngineBench.Json.Text

namespace EngineBench.Json

open Data (Found Mismatch)

def found : Scalar → Found
  | .null => .unit "null"
  | .bool b => .bool b
  | .number (.natural n) => .integer n
  | .number (.negative n) => .integer n
  | .number (.real x) => .float (Number.jsonText x)
  | .string s => .string s

/-- JSON scalars are what they are: a number is no text, and a text is no number. -/
def format : Data.Format Scalar where
  text s expected :=
    match s with
    | .string text => .ok text
    | s => .error (.invalidType (found s) expected)
  bool s :=
    match s with
    | .bool b => .ok b
    | s => .error (.invalidType (found s) "a boolean")
  natural s limit expected :=
    match s with
    | .number (.natural n) =>
      if n ≤ limit then .ok n else .error (.invalidValue (.integer n) expected)
    | .number (.negative n) => .error (.invalidValue (.integer n) expected)
    | s => .error (.invalidType (found s) expected)
  isNull s :=
    match s with
    | .null => .ok true
    | _ => .ok false
  isEmpty _ := false
  complaint s expected := .invalidType (found s) expected
  positional := true
  strictLength := true

def document (root : Data.Datum Scalar) : Data.Document Scalar := ⟨root, [], 0⟩

/-- Reads a typed value from a text with nothing behind it. What the type has no place for may be
as deep as it likes. -/
def decode {α : Type} (read : Data.Document Scalar → Data.Datum Scalar → Data.Decode α)
    (s : List Char) : Except Data.Fault α :=
  let (t, ended) := Json.read s.length s
  match (read (document t) t).run 0 with
  | .ok (a, _) => if ended then .ok a else .error .malformed
  | .error e => .error e

end EngineBench.Json
