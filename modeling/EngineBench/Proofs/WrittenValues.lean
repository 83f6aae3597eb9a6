-- A value is read back from its compact text, whatever surrounds it. Of the numbers in it, those
-- that are not whole have to be read back from their own texts.
import EngineBench.Proofs.Places
import EngineBench.Proofs.ReadValues

namespace EngineBench.JsonValue

open Json

/-! ## Numbers that are not whole -/

/-- Each number of a value that is no whole number is read back from its text. -/
def RealsReadBack (v : JsonValue) : Prop :=
  ∀ place x, v.at? place = some (.number (.real x)) →
    parse? (Number.jsonText x).toList = some (.number (.real x))

theorem RealsReadBack.child {v w : JsonValue} {step : Step} (h : v.RealsReadBack)
    (hw : child? step v = some w) : w.RealsReadBack := by
  intro place x hx
  refine h (step :: place) x ?_
  rw [at?, hw]
  exact hx

theorem realsReadBack_of_children {v : JsonValue} (hv : ∀ n, v ≠ .number n)
    (h : ∀ step w, child? step v = some w → w.RealsReadBack) : v.RealsReadBack := by
  rintro (_ | ⟨step, place⟩) x hx
  · exact absurd (Option.some.inj hx) (hv _)
  · obtain ⟨w, hw, hx⟩ := Option.bind_eq_some_iff.mp hx
    exact h step w hw place x hx

theorem realsReadBack_textList (words : List String) : (textList words).RealsReadBack := by
  refine realsReadBack_of_children nofun fun step w hw => ?_
  cases step with
  | member name => cases hw
  | item i =>
    have hstring : w ∈ words.map JsonValue.string := List.mem_of_getElem? hw
    obtain ⟨word, -, rfl⟩ := List.mem_map.mp hstring
    exact realsReadBack_of_children nofun fun step w hw => by cases step <;> cases hw

theorem ChangedAt.realsReadBack {place : List Step} {x v w : JsonValue}
    (h : ChangedAt place x v w) (hv : v.RealsReadBack) (hx : x.RealsReadBack) :
    w.RealsReadBack := by
  intro other y hy
  by_cases hbelow : place <+: other
  · obtain ⟨rest, rfl⟩ := hbelow
    exact hx rest y (h.there rest ▸ hy)
  by_cases hway : other <+: place
  · -- A number has no parts, so none stands on the way to the place.
    obtain ⟨rest, rfl⟩ := hway
    have hthere := h.there []
    rw [List.append_nil, at?_append, hy] at hthere
    cases rest with
    | nil =>
      rw [List.append_nil] at hbelow
      exact (hbelow List.prefix_rfl).elim
    | cons step rest => cases step <;> cases hthere
  · exact hv other y (h.elsewhere other hbelow hway ▸ hy)

/-! ## Leaves -/

/-- A value is read back from its text in any surroundings. -/
def ReadsBack (depth : Nat) (v : JsonValue) : Prop :=
  ∀ fuel rest, 2 * v.chars.length < fuel → EndsNumber rest →
    ∃ t left, readValue fuel depth (v.chars ++ rest) = (t, some left) ∧
      skipGap left = skipGap rest ∧ ofDatum? t = some v

theorem readsBack_of_spells {n : Numeral} {left : List Char} {depth : Nat}
    (h : Spells (skipGap n.text.toList) n left) (hleft : skipGap left = []) :
    (JsonValue.number n).ReadsBack depth := by
  intro fuel rest hfuel hrest
  obtain ⟨fuel, rfl⟩ := Nat.exists_eq_add_of_lt hfuel
  refine ⟨.leaf (.number n), left ++ rest, ?_, ?_, rfl⟩
  · have hne : skipGap n.text.toList ≠ [] := by
      intro hnil
      rw [hnil] at h
      cases h
    rw [← readValue_skipGap, chars, skipGap_append hne]
    exact (h.append hrest).readValue _ _
  · unfold skipGap at hleft ⊢
    rw [List.dropWhile_append, hleft]
    rfl

theorem spells_natural {n : Nat} (h : n < wordLimit) :
    Spells (skipGap (Numeral.text (.natural n)).toList) (.natural n) [] := by
  rw [Numeral.text, Nat.toString_eq_ofList_toDigits, String.toList_ofList]
  have hread := readNumeral_toDigits false h
  cases hdigits : Nat.toDigits 10 n with
  | nil => exact absurd hdigits Nat.toDigits_ne_nil
  | cons c s =>
    have hmem : c ∈ Nat.toDigits 10 n := by
      rw [hdigits]
      exact List.mem_cons_self ..
    have hc : c.isDigit = true := Nat.isDigit_of_mem_toDigits (by decide) (Nat.le_refl 10) hmem
    rw [hdigits] at hread
    rw [skipGap, List.dropWhile_cons, isGap_of_isDigit hc]
    exact .plain hc hread

theorem spells_negative {m : Nat} (h0 : 0 < m) (h : m ≤ 2 ^ 63) :
    Spells (skipGap (Numeral.text (.negative (-m))).toList) (.negative (-m)) [] := by
  have hread := readNumeral_toDigits true (n := m) (Nat.lt_of_le_of_lt h (by decide))
  have hplain : plainNumber true m = .negative (-m) := by
    unfold plainNumber
    rw [Bool.not_true, if_neg Bool.false_ne_true, if_pos]
    rw [decide_eq_true h0, Bool.true_and]
    exact decide_eq_true h
  obtain ⟨m, rfl⟩ := Nat.exists_eq_succ_of_ne_zero (Nat.ne_of_gt h0)
  have htext : (Numeral.text (.negative (-(m.succ : Int)))).toList =
      '-' :: Nat.toDigits 10 m.succ := by
    show ("-" ++ m.succ.repr).toList = _
    rw [String.toList_append, Nat.toList_repr]
    rfl
  rw [hplain] at hread
  rw [htext]
  exact .below hread

theorem skipGap_stringText (s : String) (rest : List Char) :
    skipGap (stringText s ++ rest) = '"' :: (s.toList.flatMap escaped ++ '"' :: rest) := by
  rw [stringText, List.append_assoc]
  rfl

theorem readsBack_null (depth : Nat) : null.ReadsBack depth := by
  rintro (_ | fuel) rest hfuel -
  · exact absurd hfuel (Nat.not_lt_zero _)
  · exact ⟨_, rest, rfl, rfl, rfl⟩

theorem readsBack_bool (b : Bool) (depth : Nat) : (bool b).ReadsBack depth := by
  rintro (_ | fuel) rest hfuel -
  · exact absurd hfuel (Nat.not_lt_zero _)
  · cases b <;> exact ⟨_, rest, rfl, rfl, rfl⟩

theorem readsBack_string (text : String) (depth : Nat) : (string text).ReadsBack depth := by
  rintro (_ | fuel) rest hfuel -
  · exact absurd hfuel (Nat.not_lt_zero _)
  · refine ⟨stringDatum (some text.toList), rest, ?_, rfl, ?_⟩
    · simp only [chars, readValue, skipGap_stringText, readString_flatMap]
    · rw [stringDatum, String.ofList_toList]
      rfl

/-! ## Lists and objects -/

theorem readItems_of_end {s r : List Char} (h : skipGap s = ']' :: r) (fuel depth : Nat) :
    (readItems fuel depth s).2 = none := by
  cases fuel with
  | zero => rfl
  | succ fuel =>
    have hvalue : readValue fuel depth s = wrong := by
      cases fuel with
      | zero => rfl
      | succ fuel =>
        rw [readValue, h]
        rfl
    rw [readItems, hvalue]
    rfl

theorem readMembers_of_end {s r : List Char} (h : skipGap s = '\x7d' :: r) (fuel depth : Nat) :
    (readMembers fuel depth s).2 = none := by
  cases fuel with
  | zero => rfl
  | succ fuel =>
    rw [readMembers, h]
    rfl

theorem readItems_skipGap (fuel depth : Nat) (s : List Char) :
    readItems fuel depth (skipGap s) = readItems fuel depth s := by
  cases fuel with
  | zero => rfl
  | succ fuel => rw [readItems, readItems, readValue_skipGap]

theorem readMembers_skipGap (fuel depth : Nat) (s : List Char) :
    readMembers fuel depth (skipGap s) = readMembers fuel depth s := by
  cases fuel with
  | zero => rfl
  | succ fuel => rw [readMembers, readMembers, skipGap_idem]

theorem readValue_of_items {fuel depth : Nat} {s rest : List Char} {ts : List (Data.Datum Scalar)}
    (h : readItems fuel depth s = (ts, some rest)) :
    readValue (fuel + 1) (depth + 1) ('[' :: s) = (.seq ts, some rest) := by
  have hopen : skipGap ('[' :: s) = '[' :: s := rfl
  simp only [readValue, hopen]
  split
  · rename_i hend
    have hnone := readItems_of_end hend fuel depth
    rw [h] at hnone
    cases hnone
  · rw [readItems_skipGap, h]

theorem readValue_of_members {fuel depth : Nat} {s rest : List Char}
    {ts : List (Data.Datum Scalar)} (h : readMembers fuel depth s = (ts, some rest)) :
    readValue (fuel + 1) (depth + 1) ('\x7b' :: s) = (.map ts, some rest) := by
  have hopen : skipGap ('\x7b' :: s) = '\x7b' :: s := rfl
  simp only [readValue, hopen]
  split
  · rename_i hend
    have hnone := readMembers_of_end hend fuel depth
    rw [h] at hnone
    cases hnone
  · rw [readMembers_skipGap, h]

theorem lookup_of_mem {β : Type} {l : List (String × β)} (h : l.Pairwise (·.1 < ·.1))
    {m : String × β} (hm : m ∈ l) : l.lookup m.1 = some m.2 := by
  induction h with
  | nil => cases hm
  | @cons entry rest hentry hrest ih =>
    rcases List.mem_cons.mp hm with rfl | hm
    · exact List.lookup_cons_self
    · have hne : (m.1 == entry.1) = false := beq_eq_false_iff_ne.mpr (ne_of_gt (hentry m hm))
      rw [List.lookup_cons, hne]
      exact ih hm

section

variable {fuel depth : Nat} {s left rest : List Char} {t : Data.Datum Scalar}

theorem readItems_of_last (hread : readValue fuel depth s = (t, some left))
    (hleft : skipGap left = ']' :: rest) :
    readItems (fuel + 1) depth s = ([t], some rest) := by
  simp only [readItems, hread, hleft]

theorem readItems_of_more {ts : List (Data.Datum Scalar)} {behind : Option (List Char)}
    (hread : readValue fuel depth s = (t, some left)) (hleft : skipGap left = ',' :: rest)
    (hmore : readItems fuel depth rest = (ts, behind)) :
    readItems (fuel + 1) depth s = (t :: ts, behind) := by
  simp only [readItems, hread, hleft, hmore]

theorem readMembers_of_last (k : String) (hread : readValue fuel depth s = (t, some left))
    (hleft : skipGap left = '\x7d' :: rest) :
    readMembers (fuel + 1) depth (stringText k ++ ':' :: s) =
      ([stringDatum (some k.toList), t], some rest) := by
  have hcolon : skipGap (':' :: s) = ':' :: s := rfl
  simp only [readMembers, skipGap_stringText, readString_flatMap, hcolon, hread, hleft]

theorem readMembers_of_more (k : String) {ts : List (Data.Datum Scalar)}
    {behind : Option (List Char)} (hread : readValue fuel depth s = (t, some left))
    (hleft : skipGap left = ',' :: rest) (hmore : readMembers fuel depth rest = (ts, behind)) :
    readMembers (fuel + 1) depth (stringText k ++ ':' :: s) =
      (stringDatum (some k.toList) :: t :: ts, behind) := by
  have hcolon : skipGap (':' :: s) = ':' :: s := rfl
  simp only [readMembers, skipGap_stringText, readString_flatMap, hcolon, hread, hleft, hmore]

end

theorem listChars_cons_cons (v w : JsonValue) (vs : List JsonValue) :
    listChars (v :: w :: vs) = v.chars ++ ',' :: listChars (w :: vs) := by
  rw [listChars]
  exact nofun

theorem endsNumber_cons {c : Char} (rest : List Char)
    (h : c.isDigit = false ∧ c ≠ '.' ∧ c ≠ 'e' ∧ c ≠ 'E') : EndsNumber (c :: rest) := by
  rintro _ ⟨⟩
  exact h

theorem readItems_listChars {depth : Nat} {items : List JsonValue} (hne : items ≠ [])
    (h : ∀ v ∈ items, v.ReadsBack depth) {fuel : Nat} (rest : List Char)
    (hfuel : 2 * (listChars items).length + 1 < fuel) :
    ∃ ts, readItems fuel depth (listChars items ++ ']' :: rest) = (ts, some rest) ∧
      listOf? ts = some items := by
  induction items generalizing fuel with
  | nil => exact absurd rfl hne
  | cons v vs ih =>
    have hv := h v (List.mem_cons_self ..)
    cases fuel with
    | zero => exact absurd hfuel (Nat.not_lt_zero _)
    | succ fuel =>
    cases vs with
    | nil =>
      have hlength : 2 * v.chars.length < fuel := by
        rw [listChars] at hfuel
        omega
      obtain ⟨t, left, hread, hleft, ht⟩ := hv fuel (']' :: rest) hlength
        (endsNumber_cons rest (by decide))
      refine ⟨[t], ?_, by rw [listOf?, ht]; rfl⟩
      rw [listChars]
      exact readItems_of_last hread hleft
    | cons w vs =>
      have hlength : 2 * v.chars.length < fuel ∧ 2 * (listChars (w :: vs)).length + 1 < fuel := by
        rw [listChars_cons_cons, List.length_append, List.length_cons] at hfuel
        omega
      obtain ⟨ts, hts, hlist⟩ := ih (List.cons_ne_nil _ _)
        (fun x hx => h x (List.mem_cons_of_mem _ hx)) hlength.2
      obtain ⟨t, left, hread, hleft, ht⟩ := hv fuel (',' :: (listChars (w :: vs) ++ ']' :: rest))
        hlength.1 (endsNumber_cons _ (by decide))
      refine ⟨t :: ts, ?_, by rw [listOf?, ht, hlist]; rfl⟩
      rw [listChars_cons_cons, List.append_assoc, List.cons_append]
      exact readItems_of_more hread hleft hts

theorem memberChars_cons_cons (k : String) (v : JsonValue) (m : String × JsonValue)
    (ms : List (String × JsonValue)) : memberChars ((k, v) :: m :: ms) =
      stringText k ++ ':' :: v.chars ++ ',' :: memberChars (m :: ms) := by
  rw [memberChars]
  exact nofun

theorem sortedInsert_of_below {β : Type} {key : String} {value : β} {l : List (String × β)}
    (h : ∀ m ∈ l, key < m.1) : Data.Decode.sortedInsert key value l = (key, value) :: l := by
  cases l with
  | nil => rfl
  | cons m rest =>
    have hm := h m (List.mem_cons_self ..)
    rw [Data.Decode.sortedInsert, if_neg (ne_of_lt hm), if_pos hm]

theorem lookup_eq_none_of_below {β : Type} {key : String} {l : List (String × β)}
    (h : ∀ m ∈ l, key < m.1) : l.lookup key = none := by
  rw [List.lookup_eq_none_iff]
  exact fun m hm => bne_iff_ne.mpr (ne_of_lt (h m hm))

/-- A member that stands before all others is put there. -/
theorem membersOf?_of_below {key : String} {t : Data.Datum Scalar} {ts : List (Data.Datum Scalar)}
    {v : JsonValue} {ms : List (String × JsonValue)} (ht : ofDatum? t = some v)
    (hts : membersOf? ts = some ms) (hbelow : ∀ m ∈ ms, key < m.1) :
    membersOf? (stringDatum (some key.toList) :: t :: ts) = some ((key, v) :: ms) := by
  rw [stringDatum, String.ofList_toList, membersOf?, ht, hts]
  simp only [Option.bind_eq_bind, Option.bind_some, lookup_eq_none_of_below hbelow,
    sortedInsert_of_below hbelow]
  rfl

theorem readMembers_memberChars {depth : Nat} {members : List (String × JsonValue)}
    (hne : members ≠ []) (h : ∀ m ∈ members, m.2.ReadsBack depth)
    (hsorted : members.Pairwise (·.1 < ·.1)) {fuel : Nat} (rest : List Char)
    (hfuel : 2 * (memberChars members).length + 1 < fuel) :
    ∃ ts, readMembers fuel depth (memberChars members ++ '\x7d' :: rest) = (ts, some rest) ∧
      membersOf? ts = some members := by
  induction hsorted generalizing fuel with
  | nil => exact absurd rfl hne
  | @cons m ms hbelow hsorted ih =>
    obtain ⟨k, v⟩ := m
    have hv := h (k, v) (List.mem_cons_self ..)
    cases fuel with
    | zero => exact absurd hfuel (Nat.not_lt_zero _)
    | succ fuel =>
    cases ms with
    | nil =>
      have hlength : 2 * v.chars.length < fuel := by
        rw [memberChars, List.length_append, List.length_cons] at hfuel
        omega
      obtain ⟨t, left, hread, hleft, ht⟩ := hv fuel ('\x7d' :: rest) hlength
        (endsNumber_cons rest (by decide))
      refine ⟨[stringDatum (some k.toList), t], ?_, membersOf?_of_below ht rfl nofun⟩
      rw [memberChars, List.append_assoc, List.cons_append]
      exact readMembers_of_last k hread hleft
    | cons m ms =>
      have hlength : 2 * v.chars.length < fuel ∧ 2 * (memberChars (m :: ms)).length + 1 < fuel := by
        rw [memberChars_cons_cons] at hfuel
        simp only [List.length_append, List.length_cons] at hfuel
        omega
      obtain ⟨ts, hts, hlist⟩ := ih (List.cons_ne_nil _ _)
        (fun x hx => h x (List.mem_cons_of_mem _ hx)) hlength.2
      obtain ⟨t, left, hread, hleft, ht⟩ := hv fuel
        (',' :: (memberChars (m :: ms) ++ '\x7d' :: rest)) hlength.1 (endsNumber_cons _ (by decide))
      refine ⟨stringDatum (some k.toList) :: t :: ts, ?_, membersOf?_of_below ht hlist hbelow⟩
      rw [memberChars_cons_cons, List.append_assoc, List.append_assoc, List.cons_append,
        List.cons_append]
      exact readMembers_of_more k hread hleft hts

theorem readsBack_list {depth : Nat} {items : List JsonValue}
    (h : ∀ v ∈ items, v.ReadsBack depth) : (list items).ReadsBack (depth + 1) := by
  rintro (_ | fuel) rest hfuel -
  · exact absurd hfuel (Nat.not_lt_zero _)
  cases items with
  | nil => exact ⟨_, rest, rfl, rfl, rfl⟩
  | cons v vs =>
    have hlength : 2 * (listChars (v :: vs)).length + 1 < fuel := by
      rw [chars, List.length_append, List.length_cons, List.length_singleton] at hfuel
      omega
    obtain ⟨ts, hread, hts⟩ := readItems_listChars (List.cons_ne_nil v vs) h rest hlength
    refine ⟨.seq ts, rest, ?_, rfl, ?_⟩
    · rw [chars, List.append_assoc, List.cons_append]
      exact readValue_of_items hread
    · rw [ofDatum?, hts]
      rfl

theorem readsBack_object {depth : Nat} {members : List (String × JsonValue)}
    (h : ∀ m ∈ members, m.2.ReadsBack depth) (hsorted : members.Pairwise (·.1 < ·.1)) :
    (object members).ReadsBack (depth + 1) := by
  rintro (_ | fuel) rest hfuel -
  · exact absurd hfuel (Nat.not_lt_zero _)
  cases members with
  | nil => exact ⟨_, rest, rfl, rfl, rfl⟩
  | cons m ms =>
    have hlength : 2 * (memberChars (m :: ms)).length + 1 < fuel := by
      rw [chars, List.length_append, List.length_cons, List.length_singleton] at hfuel
      omega
    obtain ⟨ts, hread, hts⟩ :=
      readMembers_memberChars (List.cons_ne_nil m ms) h hsorted rest hlength
    refine ⟨.map ts, rest, ?_, rfl, ?_⟩
    · rw [chars, List.append_assoc, List.cons_append]
      exact readValue_of_members hread
    · rw [ofDatum?, hts]
      rfl

/-! ## Every value -/

/-- A value that fits is read back from its text. -/
theorem Fits.readsBack {depth : Nat} {v : JsonValue} (h : v.Fits depth)
    (hreals : v.RealsReadBack) : v.ReadsBack depth := by
  induction h with
  | null => exact readsBack_null _
  | bool b => exact readsBack_bool b _
  | @number depth n hn =>
    cases n with
    | natural n => exact readsBack_of_spells (spells_natural hn) rfl
    | negative n =>
      obtain ⟨m, rfl, h0, hm⟩ := hn
      exact readsBack_of_spells (spells_negative h0 hm) rfl
    | real x =>
      obtain ⟨left, hspells, hleft⟩ := spells_of_parse? (hreals [] x rfl)
      exact readsBack_of_spells hspells hleft
  | string text => exact readsBack_string text _
  | @list depth items h ih =>
    refine readsBack_list fun v hv => ih v hv ?_
    obtain ⟨i, hi⟩ := List.mem_iff_getElem?.mp hv
    have hchild : child? (.item i) (.list items) = some v := hi
    exact hreals.child hchild
  | @object depth members h hsorted ih =>
    refine readsBack_object (fun m hm => ih m hm ?_) hsorted
    have hchild : child? (.member m.1) (.object members) = some m.2 := lookup_of_mem hsorted hm
    exact hreals.child hchild

theorem parse?_chars {v : JsonValue} (h : v.Fits depthLimit) (hreals : v.RealsReadBack) :
    parse? v.chars = some v := by
  obtain ⟨t, left, hread, hleft, ht⟩ :=
    h.readsBack hreals (2 * v.chars.length + 2) [] (by omega) nofun
  rw [List.append_nil] at hread
  exact parse?_eq_some_iff.mpr ⟨t, left, hread, hleft, ht⟩

/-- The value that bytes encode, if they do. -/
def ofBytes? (bytes : List UInt8) : Option JsonValue :=
  (Text.Utf8.decode bytes).toOption.bind fun text => parse? text.toList

theorem fits_of_bytes? {bytes : List UInt8} {v : JsonValue} (h : ofBytes? bytes = some v) :
    v.Fits depthLimit := by
  obtain ⟨text, -, h⟩ := Option.bind_eq_some_iff.mp h
  exact fits_of_parse? h

/-- A value is decoded from the bytes of its text. -/
theorem ofBytes?_encode {v : JsonValue} (h : v.Fits depthLimit) (hreals : v.RealsReadBack) :
    ofBytes? (Text.Utf8.encode v.text) = some v := by
  rw [ofBytes?, Text.Utf8.decode_encode]
  show parse? v.text.toList = some v
  rw [text, String.toList_ofList, parse?_chars h hreals]

end EngineBench.JsonValue
