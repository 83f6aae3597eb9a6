-- What is written is read back: a text from its bytes, a string from its escapes, a whole number
-- from its digits. What stands behind a string or a number does not matter, as long as it does not
-- carry the number on.
import EngineBench.Json.Value
import EngineBench.Text.Utf8
import Mathlib.Data.List.Basic
import Mathlib.Data.List.TakeWhile

namespace EngineBench

/-! ## Bytes -/

namespace Text.Utf8

/-- What a first byte brings about, by its number. -/
theorem start_eq (b : UInt8) : start b =
    if b.toNat < 128 then .char (Char.ofNat b.toNat)
    else if b.toNat < 194 then .bad
    else if b.toNat < 224 then .more (.some 1 1 (b.toNat % 32) 128 191)
    else if b.toNat < 240 then
      .more (.some 1 2 (b.toNat % 16) (if b.toNat = 224 then 160 else 128)
        (if b.toNat = 237 then 159 else 191))
    else if b.toNat < 245 then
      .more (.some 1 3 (b.toNat % 8) (if b.toNat = 240 then 144 else 128)
        (if b.toNat = 244 then 143 else 191))
    else .bad := by
  simp only [start, UInt8.lt_iff_toNat_lt, ← UInt8.toNat_inj, UInt8.reduceToNat]

theorem toNat_ofNat_add (n : Nat) {k m : Nat} (hk : 0 < k) (hm : k + m ≤ 256) :
    (UInt8.ofNat (n % k + m)).toNat = n % k + m := by
  rw [UInt8.toNat_ofNat']
  have := Nat.mod_lt n hk
  omega

/-- The byte that carries the six lowest bits of a number. -/
def laterByte (n : Nat) : UInt8 := UInt8.ofNat (n % 64 + 128)

/-- A later byte of a character adds six bits to its value. -/
theorem step_laterByte {n : Nat} {low high : UInt8} (seen left value : Nat)
    (hlow : low.toNat ≤ n % 64 + 128) (hhigh : n % 64 + 128 ≤ high.toNat) :
    step (.some seen left value low high) (laterByte n) =
      if left ≤ 1 then .char (Char.ofNat (value * 64 + n % 64))
      else .more (.some (seen + 1) (left - 1) (value * 64 + n % 64) 128 191) := by
  have hb : (laterByte n).toNat = n % 64 + 128 := toNat_ofNat_add n (by decide) (by decide)
  have hbits : (n % 64 + 128) % 64 = n % 64 := by omega
  rw [step, if_pos, hb, hbits]
  exact ⟨UInt8.le_iff_toNat_le.mpr (hb.symm ▸ hlow), UInt8.le_iff_toNat_le.mpr (hb.symm ▸ hhigh)⟩

theorem laterByte_bounds (n : Nat) :
    (128 : UInt8).toNat ≤ n % 64 + 128 ∧ n % 64 + 128 ≤ (191 : UInt8).toNat :=
  ⟨Nat.le_add_left .., Nat.add_le_add_right (Nat.le_of_lt_succ (n.mod_lt (by decide))) _⟩

section

variable (i seen : Nat) (bs : List UInt8)

theorem readStrict_first {b : UInt8} {p : Pending} (h : start b = .more p) :
    readStrict i .none (b :: bs) = readStrict (i + 1) p bs := by
  rw [readStrict, step, h]

theorem readStrict_bounded {n : Nat} {low high : UInt8} (left value : Nat)
    (hlow : low.toNat ≤ n % 64 + 128) (hhigh : n % 64 + 128 ≤ high.toNat) :
    readStrict i (.some seen (left + 2) value low high) (laterByte n :: bs) =
      readStrict (i + 1) (.some (seen + 1) (left + 1) (value * 64 + n % 64) 128 191) bs := by
  rw [readStrict, step_laterByte _ _ _ hlow hhigh, if_neg (by omega)]
  rfl

theorem readStrict_later (n left value : Nat) :
    readStrict i (.some seen (left + 2) value 128 191) (laterByte n :: bs) =
      readStrict (i + 1) (.some (seen + 1) (left + 1) (value * 64 + n % 64) 128 191) bs :=
  readStrict_bounded i seen bs left value (laterByte_bounds n).1 (laterByte_bounds n).2

theorem readStrict_last (n value : Nat) :
    readStrict i (.some seen 1 value 128 191) (laterByte n :: bs) =
      (readStrict (i + 1) .none bs).map (Char.ofNat (value * 64 + n % 64) :: ·) := by
  rw [readStrict, step_laterByte _ _ _ (laterByte_bounds n).1 (laterByte_bounds n).2,
    if_pos (Nat.le_refl 1)]

end

/-- The bytes of a character are read as that character. The first of them tells how many there are,
and the second is bounded so that the value is not one of fewer bytes. -/
theorem readStrict_encodeChar (c : Char) (i : Nat) (bs : List UInt8) :
    ∃ j, readStrict i .none (String.utf8EncodeChar c ++ bs) =
      (readStrict j .none bs).map (c :: ·) := by
  have hvalid : c.val.toNat < 0xD800 ∨ 0xDFFF < c.val.toNat ∧ c.val.toNat < 0x110000 := c.valid
  have hc : Char.ofNat c.val.toNat = c := Char.ofNat_toNat c
  unfold String.utf8EncodeChar
  generalize c.val.toNat = n at hvalid hc
  dsimp only
  split
  · have hb : (UInt8.ofNat n).toNat = n := by
      rw [UInt8.toNat_ofNat']
      omega
    refine ⟨i + 1, ?_⟩
    rw [List.singleton_append, readStrict, step, start_eq, hb, if_pos (by omega), hc]
  split
  · have hb := toNat_ofNat_add (n / 64) (k := 32) (m := 192) (by decide) (by decide)
    have hfirst := start_eq (UInt8.ofNat (n / 64 % 32 + 192))
    rw [hb, if_neg (by omega), if_neg (by omega), if_pos (by omega)] at hfirst
    have hvalue : (n / 64 % 32 + 192) % 32 * 64 + n % 64 = n := by omega
    show ∃ j, readStrict i .none (UInt8.ofNat (n / 64 % 32 + 192) :: laterByte n :: bs) = _
    rw [readStrict_first _ _ hfirst, readStrict_last, hvalue, hc]
    exact ⟨_, rfl⟩
  split
  · have hb := toNat_ofNat_add (n / 4096) (k := 16) (m := 224) (by decide) (by decide)
    have hfirst := start_eq (UInt8.ofNat (n / 4096 % 16 + 224))
    rw [hb, if_neg (by omega), if_neg (by omega), if_neg (by omega), if_pos (by omega)] at hfirst
    have hvalue : ((n / 4096 % 16 + 224) % 16 * 64 + n / 64 % 64) * 64 + n % 64 = n := by omega
    show ∃ j, readStrict i .none (UInt8.ofNat (n / 4096 % 16 + 224) :: laterByte (n / 64) ::
      laterByte n :: bs) = _
    rw [readStrict_first _ _ hfirst, readStrict_bounded, readStrict_last, hvalue, hc]
    · exact ⟨_, rfl⟩
    · split
      · show 160 ≤ _
        omega
      · exact (laterByte_bounds _).1
    · split
      · show _ ≤ 159
        omega
      · exact (laterByte_bounds _).2
  · have hb := toNat_ofNat_add (n / 262144) (k := 8) (m := 240) (by decide) (by decide)
    have hfirst := start_eq (UInt8.ofNat (n / 262144 % 8 + 240))
    rw [hb, if_neg (by omega), if_neg (by omega), if_neg (by omega), if_neg (by omega),
      if_pos (by omega)] at hfirst
    have hvalue : (((n / 262144 % 8 + 240) % 8 * 64 + n / 4096 % 64) * 64 + n / 64 % 64) * 64 +
        n % 64 = n := by omega
    show ∃ j, readStrict i .none (UInt8.ofNat (n / 262144 % 8 + 240) :: laterByte (n / 4096) ::
      laterByte (n / 64) :: laterByte n :: bs) = _
    rw [readStrict_first _ _ hfirst, readStrict_bounded, readStrict_later, readStrict_last, hvalue,
      hc]
    · exact ⟨_, rfl⟩
    · split
      · show 144 ≤ _
        omega
      · exact (laterByte_bounds _).1
    · split
      · show _ ≤ 143
        omega
      · exact (laterByte_bounds _).2

theorem readStrict_flatMap (s : List Char) (i : Nat) :
    readStrict i .none (s.flatMap String.utf8EncodeChar) = .ok s := by
  induction s generalizing i with
  | nil => rfl
  | cons c s ih =>
    obtain ⟨j, hj⟩ := readStrict_encodeChar c i (s.flatMap String.utf8EncodeChar)
    rw [List.flatMap_cons, hj, ih]
    rfl

theorem toList_eq_data (bytes : ByteArray) : bytes.toList = bytes.data.toList := by
  have hloop : ∀ i done, ByteArray.toList.loop bytes i done =
      done.reverse ++ bytes.data.toList.drop i := by
    intro i done
    fun_induction ByteArray.toList.loop bytes i done with
    | case1 i done hi ih =>
      have hbound : i < bytes.data.toList.length := by simpa using hi
      have hget : bytes.get! i = bytes.data.toList[i] := by
        rw [Array.getElem_toList]
        exact getElem!_pos bytes.data i hi
      rw [ih, List.reverse_cons, List.append_assoc, List.singleton_append, hget,
        ← List.drop_eq_getElem_cons]
    | case2 i done hi =>
      rw [List.drop_of_length_le (by simpa using hi), List.append_nil]
  exact hloop 0 []

theorem encode_eq (text : String) : encode text = text.toList.flatMap String.utf8EncodeChar := by
  rw [encode, toList_eq_data, String.toUTF8, ← String.utf8Encode_toList, List.utf8Encode,
    List.toList_data_toByteArray]

/-- A text is read back from its bytes. -/
theorem decode_encode (text : String) : decode (encode text) = .ok text := by
  rw [decode, encode_eq, readStrict_flatMap]
  exact congrArg Except.ok String.ofList_toList

end Text.Utf8

namespace Json

/-! ## Strings -/

theorem control_eq : ∀ n < 0x20,
    "\\u".toList ++ List.replicate (4 - (Nat.toDigits 16 n).length) '0' ++ Nat.toDigits 16 n =
      ['\\', 'u', '0', '0', Nat.digitChar (n / 16), Nat.digitChar (n % 16)] ∧
    hexWord '0' '0' (Nat.digitChar (n / 16)) (Nat.digitChar (n % 16)) = some n := by
  decide

/-- A character is read back from its escape. -/
theorem readString_escaped (c : Char) (rest : List Char) :
    readString (JsonValue.escaped c ++ rest) = (readString rest).map (prepend c) := by
  unfold JsonValue.escaped
  split
  -- The characters with an escape of their own.
  any_goals rfl
  rename_i hquote hslash _ _ _ _ _
  split
  · rename_i hcontrol
    obtain ⟨htext, hword⟩ := control_eq c.toNat hcontrol
    dsimp only
    rw [htext]
    simp only [List.cons_append, List.nil_append]
    rw [readString, hword]
    dsimp only
    rw [if_pos, Char.ofNat_toNat]
    rw [Bool.or_eq_true, decide_eq_true_eq]
    exact Or.inl (by omega)
  · rename_i hcontrol
    rw [List.singleton_append, readString, if_neg]
    · rw [Bool.or_eq_true, decide_eq_true_eq, decide_eq_true_eq]
      exact not_or.mpr ⟨hcontrol, hslash⟩
    · exact hquote
    · exact fun _ _ _ _ _ h => (hslash h).elim
    · exact fun _ _ h => (hslash h).elim

/-- A string is read back from its text. -/
theorem readString_flatMap (s rest : List Char) :
    readString (s.flatMap JsonValue.escaped ++ '"' :: rest) = some (some s, rest) := by
  induction s with
  | nil => rfl
  | cons c s ih =>
    rw [List.flatMap_cons, List.append_assoc, readString_escaped, ih]
    rfl

/-! ## Numbers -/

/-- A text that does not carry on a number before it. -/
def EndsNumber (rest : List Char) : Prop :=
  ∀ c ∈ rest.head?, c.isDigit = false ∧ c ≠ '.' ∧ c ≠ 'e' ∧ c ≠ 'E'

section

variable {rest : List Char}

theorem takeWhile_isDigit_append (h : EndsNumber rest) (s : List Char) :
    (s ++ rest).takeWhile Char.isDigit = s.takeWhile Char.isDigit := by
  have hrest : rest.takeWhile Char.isDigit = [] := by
    cases rest with
    | nil => rfl
    | cons c rest =>
      rw [List.takeWhile_cons, (h c rfl).1]
      rfl
  rw [List.takeWhile_append, hrest, List.append_nil, ite_eq_right_iff]
  exact fun hall => (List.takeWhile_prefix _).eq_of_length hall |>.symm

theorem drop_takeWhile_append (s : List Char) (p : Char → Bool) :
    (s ++ rest).drop (s.takeWhile p).length = s.drop (s.takeWhile p).length ++ rest :=
  List.drop_append_of_le_length (List.takeWhile_prefix p).length_le

theorem startsExponent_append (h : EndsNumber rest) (s : List Char) :
    startsExponent (s ++ rest) = startsExponent s := by
  cases s with
  | cons c s => rfl
  | nil =>
    cases rest with
    | nil => rfl
    | cons c rest =>
      obtain ⟨-, -, he, hE⟩ := h c rfl
      simp only [List.nil_append, startsExponent, Bool.or_eq_false_iff, beq_eq_false_iff_ne]
      exact ⟨he, hE⟩

theorem exponentSign_append {s : List Char} (hs : s ≠ []) :
    exponentSign (s ++ rest) = ((exponentSign s).1, (exponentSign s).2 ++ rest) := by
  cases s with
  | nil => exact absurd rfl hs
  | cons c s =>
    rw [List.cons_append]
    unfold exponentSign
    split <;> split <;> simp_all

theorem readExponent_append {negative : Bool} {sig : Nat} {e : Int} {s left : List Char}
    {n : Option Numeral} (h : EndsNumber rest)
    (hread : readExponent negative sig e s = some (n, left)) :
    readExponent negative sig e (s ++ rest) = some (n, left ++ rest) := by
  unfold readExponent at hread ⊢
  rw [startsExponent_append h]
  split at hread
  · rename_i hexp
    have htail : s.tail ≠ [] := by
      intro hnil
      rw [hnil] at hread
      cases hread
    have hs : s ≠ [] := fun hnil => htail (by rw [hnil, List.tail_nil])
    rw [if_pos hexp, List.tail_append_of_ne_nil hs, exponentSign_append htail]
    dsimp only at hread ⊢
    rw [takeWhile_isDigit_append h, drop_takeWhile_append]
    split at hread
    · cases hread
    · rename_i hdigits
      cases hread
      rw [if_neg hdigits]
  · rename_i hexp
    cases hread
    rw [if_neg hexp]

/-- A number is read the same with a text behind it that does not carry it on. -/
theorem readNumeral_append {negative : Bool} {s left : List Char} {n : Option Numeral}
    (h : EndsNumber rest) (hread : readNumeral negative s = some (n, left)) :
    readNumeral negative (s ++ rest) = some (n, left ++ rest) := by
  unfold readNumeral at hread ⊢
  dsimp only at hread ⊢
  rw [takeWhile_isDigit_append h, drop_takeWhile_append]
  split at hread
  · cases hread
  rename_i hwhole
  rw [if_neg hwhole]
  generalize s.drop (s.takeWhile Char.isDigit).length = after at hread ⊢
  generalize takeDigits 0 (s.takeWhile Char.isDigit) = digits at hread ⊢
  obtain ⟨sig, lost⟩ := digits
  dsimp only at hread ⊢
  split at hread
  · rename_i tail
    simp only [List.cons_append]
    rw [takeWhile_isDigit_append h, drop_takeWhile_append]
    split at hread
    · cases hread
    · rename_i hpart
      rw [if_neg hpart]
      exact readExponent_append h hread
  · rename_i hpoint
    split
    · rename_i tail hsplit
      cases after with
      | nil => exact absurd rfl (h '.' (by rw [← List.nil_append rest, hsplit]; rfl)).2.1
      | cons c after =>
        cases hsplit
        exact (hpoint after rfl).elim
    · rw [startsExponent_append h]
      split at hread
      · rename_i hplain
        cases hread
        rw [if_pos hplain]
      · rename_i hplain
        rw [if_neg hplain]
        exact readExponent_append h hread

end

theorem le_ofDigitChars (s : List Char) (n : Nat) : n ≤ Nat.ofDigitChars 10 s n := by
  induction s generalizing n with
  | nil => exact Nat.le_refl n
  | cons c s ih =>
    rw [Nat.ofDigitChars_cons]
    exact Nat.le_trans (by omega) (ih _)

theorem takeDigits_eq {s : List Char} {n : Nat} (h : Nat.ofDigitChars 10 s n < wordLimit) :
    takeDigits n s = (Nat.ofDigitChars 10 s n, 0) := by
  induction s generalizing n with
  | nil => rfl
  | cons c s ih =>
    have hnext : n * 10 + (c.toNat - 48) = 10 * n + (c.toNat - '0'.toNat) := by
      rw [Nat.mul_comm]
      rfl
    rw [Nat.ofDigitChars_cons] at h ⊢
    rw [takeDigits, hnext, if_pos (Nat.lt_of_le_of_lt (le_ofDigitChars s _) h), ih h]

theorem takeWhile_toDigits (n : Nat) :
    (Nat.toDigits 10 n).takeWhile Char.isDigit = Nat.toDigits 10 n :=
  List.takeWhile_eq_self_iff.mpr fun _ hc =>
    Nat.isDigit_of_mem_toDigits (by decide) (Nat.le_refl 10) hc

theorem eq_zero_of_head?_toDigits {n : Nat} (h : (Nat.toDigits 10 n).head? = some '0') :
    n = 0 := by
  induction n using Nat.strongRecOn with
  | _ n ih =>
    by_cases hn : n < 10
    · rw [Nat.toDigits_of_lt_base hn] at h
      have hzero : ∀ n < 10, [Nat.digitChar n].head? = some '0' → n = 0 := by decide
      exact hzero n hn h
    · have hn := Nat.le_of_not_lt hn
      rw [Nat.toDigits_of_base_le (by decide) hn, List.head?_append_of_ne_nil] at h
      · have := ih (n / 10) (by omega) h
        omega
      · exact Nat.toDigits_ne_nil

/-- The digits of a number that fits a word are read as that number. -/
theorem readNumeral_toDigits {n : Nat} (negative : Bool) (h : n < wordLimit) :
    readNumeral negative (Nat.toDigits 10 n) = some (some (plainNumber negative n), []) := by
  have hdigits : takeDigits 0 (Nat.toDigits 10 n) = (n, 0) := by
    rw [takeDigits_eq] <;> rw [Nat.ofDigitChars_ten_toDigits]
    exact h
  unfold readNumeral
  dsimp only
  rw [takeWhile_toDigits, List.drop_length, hdigits, if_neg]
  · rfl
  · have hempty : (Nat.toDigits 10 n).isEmpty = false := by
      rw [List.isEmpty_eq_false_iff]
      exact Nat.toDigits_ne_nil
    rw [hempty, Bool.false_or, Bool.and_eq_true, beq_iff_eq, decide_eq_true_eq, not_and]
    intro hzero
    rw [eq_zero_of_head?_toDigits hzero]
    decide

end Json

end EngineBench
