-- JSON values, and their compact text with the members of every object in order.
import EngineBench.Data.Decode
import EngineBench.Json.Text

namespace EngineBench

/-- A JSON value. The members of an object are in ascending order of their names, each name once. -/
inductive JsonValue where
  | null
  | bool (b : Bool)
  | number (n : Json.Numeral)
  | string (s : String)
  | list (items : List JsonValue)
  | object (members : List (String × JsonValue))

namespace JsonValue

open Json (Scalar)

/-! ## From a text -/

def ofScalar : Scalar → JsonValue
  | .null => null
  | .bool b => bool b
  | .number n => number n
  | .string s => string s

mutual

/-- The value of a tree in which nothing is wrong. Of two members of one name the later counts. -/
def ofDatum? : Data.Datum Scalar → Option JsonValue
  | .leaf s => some (ofScalar s)
  | .seq ts => (listOf? ts).map list
  | .map ts => (membersOf? ts).map object
  | .ref _ => none
  | .valueless => none
  | .torn => none

def listOf? : List (Data.Datum Scalar) → Option (List JsonValue)
  | [] => some []
  | t :: ts => do return (← ofDatum? t) :: (← listOf? ts)

def membersOf? : List (Data.Datum Scalar) → Option (List (String × JsonValue))
  | [] => some []
  | [_] => none
  | k :: v :: ts =>
    match k with
    | .leaf (.string name) => do
      let value ← ofDatum? v
      let rest ← membersOf? ts
      return if (rest.lookup name).isSome then rest else Data.Decode.sortedInsert name value rest
    | _ => none

end

/-- The number of lists and objects that may be open at a time in a value. -/
def depthLimit : Nat := 127

/-- The value that a text spells, with nothing behind it. -/
def parse? (s : List Char) : Option JsonValue :=
  match Json.read depthLimit s with
  | (t, true) => ofDatum? t
  | (_, false) => none

/-! ## To a text -/

def escaped (c : Char) : List Char :=
  match c with
  | '"' => ['\\', '"']
  | '\\' => ['\\', '\\']
  | '\x08' => ['\\', 'b']
  | '\x0c' => ['\\', 'f']
  | '\n' => ['\\', 'n']
  | '\r' => ['\\', 'r']
  | '\t' => ['\\', 't']
  | c =>
    if c.toNat < 0x20 then
      let d := Nat.toDigits 16 c.toNat
      "\\u".toList ++ List.replicate (4 - d.length) '0' ++ d
    else [c]

def stringText (s : String) : List Char := '"' :: s.toList.flatMap escaped ++ ['"']

mutual

/-- The compact text of a value. -/
def chars : JsonValue → List Char
  | null => "null".toList
  | bool b => (toString b).toList
  | number n => n.text.toList
  | string s => stringText s
  | list items => '[' :: listChars items ++ [']']
  | object members => '\x7b' :: memberChars members ++ ['\x7d']

def listChars : List JsonValue → List Char
  | [] => []
  | [v] => v.chars
  | v :: vs => v.chars ++ ',' :: listChars vs

def memberChars : List (String × JsonValue) → List Char
  | [] => []
  | [(k, v)] => stringText k ++ ':' :: v.chars
  | (k, v) :: ms => stringText k ++ ':' :: v.chars ++ ',' :: memberChars ms

end

def text (v : JsonValue) : String := String.ofList v.chars

/-! ## Members -/

def member? (name : String) : JsonValue → Option JsonValue
  | object members => members.lookup name
  | _ => none

/-- The object with one member set; any other value stays as it is. -/
def setMember (v : JsonValue) (name : String) (value : JsonValue) : JsonValue :=
  match v with
  | object members => object (Data.Decode.sortedInsert name value members)
  | v => v

def isObject : JsonValue → Bool
  | object _ => true
  | _ => false

end JsonValue

end EngineBench
