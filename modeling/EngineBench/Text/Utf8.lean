-- Bytes as text. One byte machine serves the strict reader, which reports the first fault,
-- and the lossy reader, which puts a replacement character in the place of each fault.
namespace EngineBench.Text.Utf8

/-- What the machine has read of a character: nothing, or `seen` bytes with value `value`, of
which `left` are still to come and the next lies between `low` and `high`. -/
inductive Pending where
  | none
  | some (seen left value : Nat) (low high : UInt8)
  deriving Repr

/-- What one byte brings about. `broken n` says that the `n` bytes before this one form no
character; the byte itself is then read again from `Pending.none`. -/
inductive Effect where
  | char (c : Char)
  | more (p : Pending)
  | bad
  | broken (n : Nat)

/-- The bytes that may follow a first byte are bounded so that no character has two spellings
and no surrogate is read. -/
def start (b : UInt8) : Effect :=
  if b < 0x80 then .char (Char.ofNat b.toNat)
  else if b < 0xC2 then .bad
  else if b < 0xE0 then .more (.some 1 1 (b.toNat % 32) 0x80 0xBF)
  else if b < 0xF0 then
    .more (.some 1 2 (b.toNat % 16) (if b = 0xE0 then 0xA0 else 0x80)
      (if b = 0xED then 0x9F else 0xBF))
  else if b < 0xF5 then
    .more (.some 1 3 (b.toNat % 8) (if b = 0xF0 then 0x90 else 0x80)
      (if b = 0xF4 then 0x8F else 0xBF))
  else .bad

def step : Pending → UInt8 → Effect
  | .none, b => start b
  | .some seen left value low high, b =>
    if low ≤ b ∧ b ≤ high then
      let value := value * 64 + b.toNat % 64
      if left ≤ 1 then .char (Char.ofNat value)
      else .more (.some (seen + 1) (left - 1) value 0x80 0xBF)
    else .broken seen

/-- A place where bytes are no text: `length` bytes from `index`, or an unfinished character at
the end of the input. -/
inductive Fault where
  | invalid (index length : Nat)
  | unfinished (index : Nat)
  deriving DecidableEq, Repr

def Fault.message : Fault → String
  | .invalid index length =>
    "invalid utf-8 sequence of " ++ toString length ++ " bytes from index " ++ toString index
  | .unfinished index => "incomplete utf-8 byte sequence from index " ++ toString index

/-- Reads on at byte `index`, or stops at the first fault. -/
def readStrict (index : Nat) (p : Pending) : List UInt8 → Except Fault (List Char)
  | [] =>
    match p with
    | .none => .ok []
    | .some seen _ _ _ _ => .error (.unfinished (index - seen))
  | b :: bs =>
    match step p b with
    | .char c => (readStrict (index + 1) .none bs).map (c :: ·)
    | .more p' => readStrict (index + 1) p' bs
    | .bad => .error (.invalid index 1)
    | .broken n => .error (.invalid (index - n) n)

def replacement : Char := '\uFFFD'

/-- Reads on with a replacement character for each fault. -/
def readLossy (p : Pending) : List UInt8 → List Char
  | [] =>
    match p with
    | .none => []
    | .some .. => [replacement]
  | b :: bs =>
    match step p b with
    | .char c => c :: readLossy .none bs
    | .more p' => readLossy p' bs
    | .bad => replacement :: readLossy .none bs
    | .broken _ =>
      match start b with
      | .char c => replacement :: c :: readLossy .none bs
      | .more p' => replacement :: readLossy p' bs
      | _ => replacement :: replacement :: readLossy .none bs

def decode (bytes : List UInt8) : Except Fault String :=
  (readStrict 0 .none bytes).map String.ofList

def decodeLossy (bytes : List UInt8) : String := String.ofList (readLossy .none bytes)

def encode (text : String) : List UInt8 := text.toUTF8.toList

end EngineBench.Text.Utf8
