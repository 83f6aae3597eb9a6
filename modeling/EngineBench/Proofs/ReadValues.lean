-- What can be read from a JSON text at all: numbers that fit their words, members in the order of
-- their names, and no more lists and objects within each other than the reader allows.
import EngineBench.Proofs.Spellings
import Mathlib.Data.List.DropRight
import Mathlib.Data.String.Basic

namespace EngineBench

namespace Json

open JsonValue

/-! ## Gaps -/

theorem skipGap_idem (s : List Char) : skipGap (skipGap s) = skipGap s :=
  List.dropWhile_idempotent _ s

theorem readValue_skipGap (fuel depth : Nat) (s : List Char) :
    readValue fuel depth (skipGap s) = readValue fuel depth s := by
  cases fuel with
  | zero => rfl
  | succ fuel => rw [readValue, readValue, skipGap_idem]

theorem skipGap_append {s : List Char} (h : skipGap s ≠ []) (rest : List Char) :
    skipGap (s ++ rest) = skipGap s ++ rest := by
  unfold skipGap at h ⊢
  rw [List.dropWhile_append, if_neg (by simpa using h)]

/-! ## Numbers -/

/-- A number at the start of a text, and the text behind it. -/
inductive Spells : List Char → Numeral → List Char → Prop
  | below {s left : List Char} {n : Numeral} (h : readNumeral true s = some (some n, left)) :
      Spells ('-' :: s) n left
  | plain {c : Char} {s left : List Char} {n : Numeral} (hc : c.isDigit = true)
      (h : readNumeral false (c :: s) = some (some n, left)) : Spells (c :: s) n left

theorem isGap_of_isDigit {c : Char} (h : c.isDigit = true) : isGap c = false := by
  rw [Bool.eq_false_iff]
  intro hgap
  simp only [isGap, Bool.or_eq_true, beq_iff_eq] at hgap
  rcases hgap with ((rfl | rfl) | rfl) | rfl <;> revert h <;> decide

/-- What a number with its sign already taken is read as. -/
def numberPiece (negative : Bool) (s : List Char) : Piece :=
  match readNumeral negative s with
  | some (n, rest) => (numberDatum n, some rest)
  | none => wrong

theorem readValue_of_digit {c : Char} (hc : c.isDigit = true) (fuel depth : Nat) (s : List Char) :
    readValue (fuel + 1) depth (c :: s) = numberPiece false (c :: s) := by
  have hgap : skipGap (c :: s) = c :: s := by
    rw [skipGap, List.dropWhile_cons, isGap_of_isDigit hc]
    rfl
  rw [readValue, hgap]
  split
  case h_8 heq =>
    cases heq
    rw [if_pos hc]
    rfl
  case h_9 heq => cases heq
  -- Every other value starts with a character that is no digit.
  all_goals
    rename_i heq
    cases heq
    exact absurd hc (by decide)

theorem Spells.append {s left rest : List Char} {n : Numeral} (h : Spells s n left)
    (hrest : EndsNumber rest) : Spells (s ++ rest) n (left ++ rest) := by
  cases h with
  | below h => exact .below (readNumeral_append hrest h)
  | plain hc h => exact .plain hc (readNumeral_append hrest h)

theorem Spells.readValue {s left : List Char} {n : Numeral} (h : Spells s n left)
    (fuel depth : Nat) : readValue (fuel + 1) depth s = (.leaf (.number n), some left) := by
  cases h with
  | below h =>
    show numberPiece true _ = _
    rw [numberPiece, h]
    rfl
  | plain hc h =>
    rw [readValue_of_digit hc, numberPiece, h]
    rfl

/-- A number as it comes from a text: a whole number fits its word. -/
def Numeral.InRange : Numeral → Prop
  | .natural n => n < wordLimit
  | .negative n => ∃ m : Nat, n = -m ∧ 0 < m ∧ m ≤ 2 ^ 63
  | .real _ => True

theorem takeDigits_lt {n : Nat} (s : List Char) (h : n < wordLimit) :
    (takeDigits n s).1 < wordLimit := by
  induction s generalizing n with
  | nil => exact h
  | cons c s ih =>
    rw [takeDigits]
    dsimp only
    split
    · rename_i hnext
      exact ih hnext
    · exact h

theorem inRange_plainNumber {sig : Nat} (negative : Bool) (h : sig < wordLimit) :
    (plainNumber negative sig).InRange := by
  unfold plainNumber
  split
  · exact h
  split
  · rename_i hsig
    rw [Bool.and_eq_true, decide_eq_true_eq, decide_eq_true_eq] at hsig
    exact ⟨sig, rfl, hsig⟩
  · trivial

theorem inRange_of_readExponent {negative : Bool} {sig : Nat} {e : Int} {s left : List Char}
    {n : Numeral} (h : readExponent negative sig e s = some (some n, left)) : n.InRange := by
  have hreal : ∀ e n, realNumber negative sig e = some n → n.InRange := by
    intro e n hn
    obtain ⟨x, -, rfl⟩ := Option.map_eq_some_iff.mp hn
    trivial
  unfold readExponent at h
  dsimp only at h
  split at h
  · split at h
    · cases h
    · obtain ⟨hn, -⟩ := Prod.mk.inj (Option.some.inj h)
      split at hn
      · cases hn
        trivial
      · exact hreal _ n hn
  · obtain ⟨hn, -⟩ := Prod.mk.inj (Option.some.inj h)
    exact hreal _ n hn

theorem inRange_of_readNumeral {negative : Bool} {s left : List Char} {n : Numeral}
    (h : readNumeral negative s = some (some n, left)) : n.InRange := by
  unfold readNumeral at h
  dsimp only at h
  split at h
  · cases h
  split at h
  · split at h
    · cases h
    · exact inRange_of_readExponent h
  split at h
  · cases h
    exact inRange_plainNumber negative (takeDigits_lt _ (by decide))
  · exact inRange_of_readExponent h

theorem Spells.inRange {s left : List Char} {n : Numeral} (h : Spells s n left) : n.InRange := by
  cases h with
  | below h => exact inRange_of_readNumeral h
  | plain hc h => exact inRange_of_readNumeral h

/-! ## Values -/

/-- What a value can be that was read from a text, and what it was made of: a list of one step less
of items that were read, an object of members that were. -/
inductive Parsed (fuel : Nat) (s : List Char) (left : Option (List Char)) :
    Nat → JsonValue → Prop
  | null {depth : Nat} : Parsed fuel s left depth .null
  | bool {depth : Nat} (b : Bool) : Parsed fuel s left depth (.bool b)
  | string {depth : Nat} (text : String) : Parsed fuel s left depth (.string text)
  | number {depth : Nat} {n : Numeral} {rest : List Char} (hleft : left = some rest)
      (h : Spells (skipGap s) n rest) : Parsed fuel s left depth (.number n)
  | list {depth : Nat} {items : List JsonValue}
      (h : items = [] ∨ ∃ rest, listOf? (readItems fuel depth rest).1 = some items) :
      Parsed fuel s left (depth + 1) (.list items)
  | object {depth : Nat} {members : List (String × JsonValue)}
      (h : members = [] ∨ ∃ rest, membersOf? (readMembers fuel depth rest).1 = some members) :
      Parsed fuel s left (depth + 1) (.object members)

theorem parsed_of_numberPiece {negative : Bool} {fuel depth : Nat} {s body : List Char}
    {v : JsonValue}
    (hs : ∀ n rest, readNumeral negative body = some (some n, rest) → Spells (skipGap s) n rest)
    (h : ofDatum? (numberPiece negative body).1 = some v) :
    Parsed fuel s (numberPiece negative body).2 depth v := by
  unfold numberPiece at h ⊢
  split at h
  · rename_i n rest hread
    cases n with
    | none => cases h
    | some n =>
      cases h
      exact .number rfl (hs n rest hread)
  · cases h

theorem parsed_of_readValue {fuel depth : Nat} {s : List Char} {v : JsonValue}
    (h : ofDatum? (readValue (fuel + 1) depth s).1 = some v) :
    Parsed fuel s (readValue (fuel + 1) depth s).2 depth v := by
  rw [readValue] at h ⊢
  -- In the order of the reader: null, true, false, a string, a list, an object, a number below
  -- zero, any other number, and no text at all.
  split at h
  case h_1 =>
    cases h
    exact .null
  case h_2 =>
    cases h
    exact .bool true
  case h_3 =>
    cases h
    exact .bool false
  case h_4 =>
    split at h
    · rename_i text rest hread
      cases text with
      | none => cases h
      | some text =>
        cases h
        exact .string _
    · cases h
  case h_5 rest hs =>
    cases depth with
    | zero => cases h
    | succ depth =>
      dsimp only at h
      split at h
      · cases h
        exact .list (.inl rfl)
      · obtain ⟨items, hitems, rfl⟩ := Option.map_eq_some_iff.mp h
        exact .list (.inr ⟨_, hitems⟩)
  case h_6 rest hs =>
    cases depth with
    | zero => cases h
    | succ depth =>
      dsimp only at h
      split at h
      · cases h
        exact .object (.inl rfl)
      · obtain ⟨items, hitems, rfl⟩ := Option.map_eq_some_iff.mp h
        exact .object (.inr ⟨_, hitems⟩)
  case h_7 rest hs =>
    exact parsed_of_numberPiece (fun _ _ hread => hs ▸ .below hread) h
  case h_8 c rest _ _ _ _ _ _ _ hs =>
    by_cases hc : c.isDigit = true
    · rw [if_pos hc] at h ⊢
      exact parsed_of_numberPiece (fun _ _ hread => hs ▸ .plain hc hread) h
    · rw [if_neg hc] at h
      cases h
  case h_9 => cases h

/-- A text spells a value where a reader takes the value from it and leaves nothing but a gap. -/
theorem parse?_eq_some_iff {s : List Char} {v : JsonValue} : parse? s = some v ↔
    ∃ t left, readValue (2 * s.length + 2) depthLimit s = (t, some left) ∧ skipGap left = [] ∧
      ofDatum? t = some v := by
  unfold parse? Json.read
  generalize readValue (2 * s.length + 2) depthLimit s = piece
  obtain ⟨t, left⟩ := piece
  cases left with
  | none => exact ⟨nofun, nofun⟩
  | some left =>
    dsimp only
    cases hleft : skipGap left with
    | nil =>
      constructor
      · exact fun h => ⟨t, left, rfl, hleft, h⟩
      · rintro ⟨_, _, heq, -, h⟩
        cases heq
        exact h
    | cons c rest =>
      refine ⟨nofun, ?_⟩
      rintro ⟨_, _, heq, hgap, -⟩
      cases heq
      rw [hleft] at hgap
      cases hgap

theorem spells_of_parse? {s : List Char} {n : Numeral} (h : parse? s = some (.number n)) :
    ∃ left, Spells (skipGap s) n left ∧ skipGap left = [] := by
  obtain ⟨t, left, hread, hleft, ht⟩ := parse?_eq_some_iff.mp h
  have hvalue : ofDatum? (readValue (2 * s.length + 2) depthLimit s).1 = some (.number n) := by
    rw [hread]
    exact ht
  have hparsed := parsed_of_readValue hvalue
  rw [hread] at hparsed
  cases hparsed with
  | number hsome hspells =>
    cases hsome
    exact ⟨left, hspells, hleft⟩

end Json

namespace JsonValue

open Json

/-! ## Items and members -/

theorem listOf?_cons {t : Data.Datum Scalar} {ts : List (Data.Datum Scalar)}
    {items : List JsonValue} (h : listOf? (t :: ts) = some items) :
    ∃ v vs, items = v :: vs ∧ ofDatum? t = some v ∧ listOf? ts = some vs := by
  rw [listOf?] at h
  obtain ⟨v, hv, h⟩ := Option.bind_eq_some_iff.mp h
  obtain ⟨vs, hvs, h⟩ := Option.bind_eq_some_iff.mp h
  cases h
  exact ⟨v, vs, rfl, hv, hvs⟩

/-- The items that were read are a value and, if anything, further items. -/
theorem items_of_readItems {fuel depth : Nat} {s : List Char} {items : List JsonValue}
    (h : listOf? (readItems (fuel + 1) depth s).1 = some items) :
    ∃ v vs, items = v :: vs ∧ ofDatum? (readValue fuel depth s).1 = some v ∧
      (vs = [] ∨ ∃ rest, listOf? (readItems fuel depth rest).1 = some vs) := by
  rw [readItems] at h
  generalize readValue fuel depth s = piece at h ⊢
  obtain ⟨t, left⟩ := piece
  cases left with
  | none =>
    obtain ⟨v, vs, rfl, hv, hvs⟩ := listOf?_cons h
    cases hvs
    exact ⟨v, [], rfl, hv, .inl rfl⟩
  | some rest =>
    dsimp only at h
    split at h
    · obtain ⟨v, vs, rfl, hv, hvs⟩ := listOf?_cons h
      cases hvs
      exact ⟨v, [], rfl, hv, .inl rfl⟩
    · obtain ⟨v, vs, rfl, hv, hvs⟩ := listOf?_cons h
      exact ⟨v, vs, rfl, hv, .inr ⟨_, hvs⟩⟩
    · obtain ⟨v, vs, rfl, hv, hvs⟩ := listOf?_cons h
      cases hvs

/-- Puts a member before members that were read, unless one of them has its name. -/
def withMember (name : String) (value : JsonValue) (members : List (String × JsonValue)) :
    List (String × JsonValue) :=
  if (members.lookup name).isSome then members
  else Data.Decode.sortedInsert name value members

theorem membersOf?_cons {key : Option (List Char)} {t : Data.Datum Scalar}
    {ts : List (Data.Datum Scalar)} {members : List (String × JsonValue)}
    (h : membersOf? (stringDatum key :: t :: ts) = some members) :
    ∃ name v ms, members = withMember name v ms ∧ ofDatum? t = some v ∧
      membersOf? ts = some ms := by
  cases key with
  | none => cases h
  | some key =>
    rw [stringDatum, membersOf?] at h
    obtain ⟨v, hv, h⟩ := Option.bind_eq_some_iff.mp h
    obtain ⟨ms, hms, h⟩ := Option.bind_eq_some_iff.mp h
    cases h
    exact ⟨_, v, ms, rfl, hv, hms⟩

/-- The members that were read are one and, if anything, further members. -/
theorem members_of_readMembers {fuel depth : Nat} {s : List Char}
    {members : List (String × JsonValue)}
    (h : membersOf? (readMembers (fuel + 1) depth s).1 = some members) :
    ∃ name v ms rest, members = withMember name v ms ∧
      ofDatum? (readValue fuel depth rest).1 = some v ∧
      (ms = [] ∨ ∃ rest, membersOf? (readMembers fuel depth rest).1 = some ms) := by
  rw [readMembers] at h
  split at h
  case h_2 => cases h
  split at h
  · cases h
  dsimp only at h
  split at h
  case h_2 =>
    obtain ⟨_, _, _, _, ht, _⟩ := membersOf?_cons h
    cases ht
  rename_i key _ _ _ rest _
  generalize hpiece : readValue fuel depth rest = piece at h
  obtain ⟨t, left⟩ := piece
  cases left with
  | none =>
    obtain ⟨name, v, ms, hall, hv, hms⟩ := membersOf?_cons h
    cases hms
    exact ⟨name, v, [], rest, hall, by rw [hpiece]; exact hv, .inl rfl⟩
  | some left =>
    dsimp only at h
    split at h <;> obtain ⟨name, v, ms, hall, hv, hms⟩ := membersOf?_cons h
    · cases hms
      exact ⟨name, v, [], rest, hall, by rw [hpiece]; exact hv, .inl rfl⟩
    · exact ⟨name, v, ms, rest, hall, by rw [hpiece]; exact hv, .inr ⟨_, hms⟩⟩
    · cases hms

/-! ## Members in order -/

theorem mem_sortedInsert {β : Type} {key : String} {value : β} {l : List (String × β)}
    {m : String × β} (h : m ∈ Data.Decode.sortedInsert key value l) : m = (key, value) ∨ m ∈ l := by
  induction l with
  | nil => exact .inl (List.mem_singleton.mp h)
  | cons entry rest ih =>
    obtain ⟨k, v⟩ := entry
    rw [Data.Decode.sortedInsert] at h
    split at h
    · exact (List.mem_cons.mp h).imp_right (List.mem_cons_of_mem _)
    split at h
    · exact List.mem_cons.mp h
    · rcases List.mem_cons.mp h with rfl | h
      · exact .inr (List.mem_cons_self ..)
      · exact (ih h).imp_right (List.mem_cons_of_mem _)

theorem pairwise_sortedInsert {β : Type} (key : String) (value : β) {l : List (String × β)}
    (h : l.Pairwise (·.1 < ·.1)) :
    (Data.Decode.sortedInsert key value l).Pairwise (·.1 < ·.1) := by
  induction h with
  | nil => exact List.pairwise_singleton _ _
  | @cons entry rest hentry hrest ih =>
    obtain ⟨k, v⟩ := entry
    rw [Data.Decode.sortedInsert]
    split
    · rename_i hsame
      exact .cons (fun m hm => hsame ▸ hentry m hm) hrest
    split
    · rename_i hbelow
      refine .cons (fun m hm => ?_) (.cons hentry hrest)
      rcases List.mem_cons.mp hm with rfl | hm
      · exact hbelow
      · exact lt_trans hbelow (hentry m hm)
    · rename_i hne hnlt
      refine .cons (fun m hm => ?_) ih
      rcases mem_sortedInsert hm with rfl | hm
      · exact lt_of_le_of_ne (not_lt.mp hnlt) (Ne.symm hne)
      · exact hentry m hm

/-! ## What fits -/

/-- A value in which at most `depth` lists and objects are open at a time, whose whole numbers fit a
word and whose objects have their members in order. -/
inductive Fits : Nat → JsonValue → Prop
  | null {depth : Nat} : Fits depth .null
  | bool {depth : Nat} (b : Bool) : Fits depth (.bool b)
  | number {depth : Nat} {n : Numeral} (h : n.InRange) : Fits depth (.number n)
  | string {depth : Nat} (text : String) : Fits depth (.string text)
  | list {depth : Nat} {items : List JsonValue} (h : ∀ v ∈ items, Fits depth v) :
      Fits (depth + 1) (.list items)
  | object {depth : Nat} {members : List (String × JsonValue)}
      (h : ∀ m ∈ members, Fits depth m.2) (hsorted : members.Pairwise (·.1 < ·.1)) :
      Fits (depth + 1) (.object members)

theorem Fits.member {depth : Nat} {v w : JsonValue} {name : String} (h : v.Fits (depth + 1))
    (hw : v.member? name = some w) : w.Fits depth := by
  cases h with
  | object h hsorted =>
    obtain ⟨before, behind, rfl, -⟩ := List.lookup_eq_some_iff.mp hw
    exact h (name, w) (List.mem_append_cons_self)
  | _ => cases hw

theorem Fits.setMember {depth : Nat} {v x : JsonValue} (h : v.Fits (depth + 1))
    (hx : x.Fits depth) (name : String) : (v.setMember name x).Fits (depth + 1) := by
  cases v with
  | object members =>
    cases h with
    | object h hsorted =>
      refine .object (fun m hm => ?_) (pairwise_sortedInsert name x hsorted)
      rcases mem_sortedInsert hm with rfl | hm
      · exact hx
      · exact h m hm
  | _ => exact h

/-- By induction on the steps of the reader, for values, items and members at once. -/
theorem fits_of_read (fuel : Nat) :
    (∀ depth s v, ofDatum? (readValue fuel depth s).1 = some v → v.Fits depth) ∧
    (∀ depth s items, listOf? (readItems fuel depth s).1 = some items →
      ∀ v ∈ items, v.Fits depth) ∧
    ∀ depth s members, membersOf? (readMembers fuel depth s).1 = some members →
      (∀ m ∈ members, m.2.Fits depth) ∧ members.Pairwise (·.1 < ·.1) := by
  induction fuel with
  | zero => exact ⟨nofun, nofun, nofun⟩
  | succ fuel ih =>
    obtain ⟨ihvalue, ihitems, ihmembers⟩ := ih
    refine ⟨?_, ?_, ?_⟩
    · intro depth s v hv
      cases parsed_of_readValue hv with
      | null => exact .null
      | bool b => exact .bool b
      | string text => exact .string text
      | number hleft h => exact .number h.inRange
      | list h =>
        refine .list fun v hv => ?_
        obtain rfl | ⟨rest, h⟩ := h
        · cases hv
        · exact ihitems _ rest _ h v hv
      | object h =>
        obtain rfl | ⟨rest, h⟩ := h
        · exact .object nofun .nil
        · exact .object (ihmembers _ rest _ h).1 (ihmembers _ rest _ h).2
    · intro depth s items h v hv
      obtain ⟨v₁, vs, rfl, hv₁, hvs⟩ := items_of_readItems h
      rcases List.mem_cons.mp hv with rfl | hv
      · exact ihvalue depth s v hv₁
      · obtain rfl | ⟨rest, hrest⟩ := hvs
        · cases hv
        · exact ihitems depth rest vs hrest v hv
    · intro depth s members h
      obtain ⟨name, value, ms, rest, rfl, hvalue, hms⟩ := members_of_readMembers h
      have hrest : (∀ m ∈ ms, m.2.Fits depth) ∧ ms.Pairwise (·.1 < ·.1) := by
        obtain rfl | ⟨rest, hrest⟩ := hms
        · exact ⟨nofun, .nil⟩
        · exact ihmembers depth rest ms hrest
      unfold withMember
      split
      · exact hrest
      · refine ⟨fun m hm => ?_, pairwise_sortedInsert name value hrest.2⟩
        rcases mem_sortedInsert hm with rfl | hm
        · exact ihvalue depth rest value hvalue
        · exact hrest.1 m hm

/-- Every value that was read from a text fits. -/
theorem fits_of_parse? {s : List Char} {v : JsonValue} (h : parse? s = some v) :
    v.Fits depthLimit := by
  obtain ⟨t, left, hread, -, ht⟩ := parse?_eq_some_iff.mp h
  refine (fits_of_read (2 * s.length + 2)).1 depthLimit s v ?_
  rw [hread]
  exact ht

end JsonValue

end EngineBench
