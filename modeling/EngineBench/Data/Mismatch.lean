-- How the shape of a document can differ from the shape that is asked for, and the words
-- for it.
import EngineBench.Number.Shortest

namespace EngineBench.Data

/-- What stands in a document where something else was asked for. -/
inductive Found where
  | unit (word : String)
  | bool (b : Bool)
  | integer (n : Int)
  | wideNatural (n : Nat)
  | wideInteger (n : Int)
  | float (text : String)
  | string (s : String)
  | sequence
  | map
  deriving DecidableEq, Repr

/-! ## Quoted text -/

def hexDigits (n : Nat) : List Char := Nat.toDigits 16 n

/-- Characters that a quoted text shows by their number: controls, formats, separators other than
the blank, marks that join the character before them, and what has no character assigned at the
end of the planes. -/
def isShownByNumber (c : Char) : Bool :=
  let n := c.toNat
  n < 0x20 || (0x7F ≤ n && n < 0xA0) || n == 0xAD || (0x300 ≤ n && n ≤ 0x36F) ||
    n == 0x1680 || (0x2000 ≤ n && n ≤ 0x200F) || (0x2028 ≤ n && n ≤ 0x202F) ||
    (0x205F ≤ n && n ≤ 0x206F) || n == 0x3000 || (0xE000 ≤ n && n ≤ 0xF8FF) ||
    (0xFE00 ≤ n && n ≤ 0xFE0F) || n == 0xFEFF || (0xFFF0 ≤ n && n ≤ 0xFFFB) || 0xE0000 ≤ n

def quotedChar (c : Char) : List Char :=
  if c = '"' then ['\\', '"']
  else if c = '\\' then ['\\', '\\']
  else if c = '\n' then ['\\', 'n']
  else if c = '\r' then ['\\', 'r']
  else if c = '\t' then ['\\', 't']
  else if c.toNat = 0 then ['\\', '0']
  else if isShownByNumber c then '\\' :: 'u' :: '\x7b' :: hexDigits c.toNat ++ ['\x7d']
  else [c]

/-- A text between quotes, with what could not be read off the page spelled out. -/
def quoted (s : String) : String :=
  String.ofList ('"' :: s.toList.flatMap quotedChar ++ ['"'])

def Found.text : Found → String
  | .unit word => word
  | .bool b => "boolean `" ++ toString b ++ "`"
  | .integer n => "integer `" ++ toString n ++ "`"
  | .wideNatural n => "integer `" ++ toString n ++ "` as u128"
  | .wideInteger n => "integer `" ++ toString n ++ "` as i128"
  | .float text => "floating point `" ++ text ++ "`"
  | .string s => "string " ++ quoted s
  | .sequence => "sequence"
  | .map => "map"

/-! ## Mismatches and faults -/

inductive Mismatch where
  | invalidType (found : Found) (expected : String)
  | invalidValue (found : Found) (expected : String)
  | missingField (name : String)
  | duplicateField (name : String)
  | tooShort (length : Nat) (expected : String)
  deriving DecidableEq, Repr

def Mismatch.message : Mismatch → String
  | .invalidType found expected => "invalid type: " ++ found.text ++ ", expected " ++ expected
  | .invalidValue found expected => "invalid value: " ++ found.text ++ ", expected " ++ expected
  | .missingField name => "missing field `" ++ name ++ "`"
  | .duplicateField name => "duplicate field `" ++ name ++ "`"
  | .tooShort length expected =>
    "invalid length " ++ toString length ++ ", expected " ++ expected

/-- Why a document cannot be read: its text breaks the rules of the format, or it is well formed
and has another shape. -/
inductive Fault where
  | malformed
  | mismatch (m : Mismatch)
  deriving DecidableEq, Repr

/-- What a message adds about a fault: a word on the shape, and nothing on a broken text. -/
def Fault.note : Fault → String
  | .malformed => ""
  | .mismatch (.tooShort _ _) => ""
  | .mismatch m => ": " ++ m.message

end EngineBench.Data
