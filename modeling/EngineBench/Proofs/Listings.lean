-- Lists as the programs of engines print them. Both readers take a list line by line: what a line
-- yields is one rule on the text of that line, and no other line has a say in it.
import EngineBench.Proofs.Sightings

namespace EngineBench

/-! ## Columns -/

namespace Text

/-- White space alone, or nothing. -/
def Gap (s : List Char) : Prop := ∀ c ∈ s, isBlank c = true

/-- No white space. -/
def Solid (s : List Char) : Prop := ∀ c ∈ s, isBlank c = false

-- named, since the instance that is found may go through all characters there are
instance (s : List Char) : Decidable (Gap s) := List.decidableBAll _ s

instance (s : List Char) : Decidable (Solid s) := List.decidableBAll _ s

/-- A text that consists of these columns, with gaps between them and perhaps around them. -/
inductive Parted : List Char → List (List Char) → Prop
  | gap {gap : List Char} : Gap gap → Parted gap []
  | column {gap column rest : List Char} {columns : List (List Char)} : Gap gap → column ≠ [] →
      Solid column → (∀ c ∈ rest.head?, isBlank c = true) → Parted rest columns →
      Parted (gap ++ (column ++ rest)) (column :: columns)

theorem columns_cons_blank {c : Char} (h : isBlank c = true) (s : List Char) :
    columns (c :: s) = columns s := by
  simp [columns, columns.go, h]

theorem go_ne_nil (c : Char) (s : List Char) : columns.go (c :: s) ≠ [] := by
  rw [columns.go]
  split
  · simp
  · cases columns.go s <;> simp [openColumn]

/-- The pieces of two texts with a blank between them. An empty piece comes in addition, if the
first text is empty or has a blank at its end. -/
theorem go_append_blank {b : Char} (h : isBlank b = true) (s t : List Char) :
    ∃ e, e.filter (· ≠ []) = [] ∧
      columns.go (s ++ b :: t) = columns.go s ++ (e ++ columns.go t) := by
  induction s with
  | nil => exact ⟨[[]], rfl, by simp [columns.go, h]⟩
  | cons c s ih =>
    obtain ⟨e, he, hgo⟩ := ih
    by_cases hc : isBlank c = true
    · exact ⟨e, he, by simp [columns.go, hc, hgo]⟩
    · cases s with
      | nil => exact ⟨[], rfl, by simp [columns.go, hc, h, openColumn]⟩
      | cons d s =>
        have hopen : ∀ s, columns.go (c :: s) = openColumn c (columns.go s) := fun s => if_neg hc
        refine ⟨e, he, ?_⟩
        rw [List.cons_append, hopen, hopen, hgo, openColumn_append c (go_ne_nil d s)]

theorem columns_append_blank {b : Char} (h : isBlank b = true) (s t : List Char) :
    columns (s ++ b :: t) = columns s ++ columns t := by
  obtain ⟨e, he, hgo⟩ := go_append_blank h s t
  rw [columns, hgo, List.filter_append, List.filter_append, he, List.nil_append]
  rfl

theorem columns_gap_append {gap : List Char} (h : Gap gap) (s : List Char) :
    columns (gap ++ s) = columns s := by
  induction gap with
  | nil => rfl
  | cons c gap ih =>
    obtain ⟨hc, hgap⟩ := List.forall_mem_cons.mp h
    rw [List.cons_append, columns_cons_blank hc, ih hgap]

theorem columns_of_solid {s : List Char} (hne : s ≠ []) (h : Solid s) : columns s = [s] := by
  have hgo : columns.go s = [s] := by
    induction s with
    | nil => exact absurd rfl hne
    | cons c s ih =>
      obtain ⟨hc, hs⟩ := List.forall_mem_cons.mp h
      cases s with
      | nil => simp [columns.go, hc, openColumn]
      | cons d s => rw [columns.go, ih (by simp) hs, hc]; rfl
  simp [columns, hgo, hne]

theorem columns_of_parted {s : List Char} {cs : List (List Char)} (h : Parted s cs) :
    columns s = cs := by
  induction h with
  | gap hgap =>
    have hnil := columns_gap_append hgap []
    rwa [List.append_nil] at hnil
  | @column gap column rest cs hgap hne hsolid hrest _ ih =>
    rw [columns_gap_append hgap]
    cases rest with
    | nil =>
      obtain rfl : [] = cs := ih
      rw [List.append_nil, columns_of_solid hne hsolid]
    | cons b rest =>
      have hb : isBlank b = true := hrest b rfl
      rw [columns_append_blank hb, columns_of_solid hne hsolid, ← ih, columns_cons_blank hb]
      rfl

theorem exists_parted (s : List Char) : ∃ cs, Parted s cs := by
  induction s with
  | nil => exact ⟨[], .gap (by simp [Gap])⟩
  | cons c s ih =>
    obtain ⟨cs, h⟩ := ih
    by_cases hc : isBlank c = true
    · cases h with
      | gap hgap => exact ⟨[], .gap (List.forall_mem_cons.mpr ⟨hc, hgap⟩)⟩
      | column hgap hne hsolid hrest h =>
        exact ⟨_, .column (List.forall_mem_cons.mpr ⟨hc, hgap⟩) hne hsolid hrest h⟩
    · have hc : isBlank c = false := Bool.eq_false_iff.mpr hc
      have hnone : Gap [] := by simp [Gap]
      have hsingle : Solid [c] := by simpa [Solid] using hc
      -- in front of a gap the character is a column of its own, and else it opens the first one
      cases h with
      | gap hgap =>
        refine ⟨_, .column hnone (List.cons_ne_nil c []) hsingle ?_ (.gap hgap)⟩
        exact fun d hd => hgap d (List.mem_of_mem_head? hd)
      | @column gap column rest cs hgap hne hsolid hrest h =>
        cases gap with
        | nil =>
          exact ⟨_, .column hnone (List.cons_ne_nil c column)
            (List.forall_mem_cons.mpr ⟨hc, hsolid⟩) hrest h⟩
        | cons d gap =>
          have hd : isBlank d = true := hgap d List.mem_cons_self
          refine ⟨_, .column hnone (List.cons_ne_nil c []) hsingle ?_
            (.column hgap hne hsolid hrest h)⟩
          simpa using hd

theorem parted_iff {s : List Char} {cs : List (List Char)} : Parted s cs ↔ columns s = cs := by
  constructor
  · exact columns_of_parted
  · rintro rfl
    obtain ⟨cs, h⟩ := exists_parted s
    exact columns_of_parted h ▸ h

instance (s : List Char) (cs : List (List Char)) : Decidable (Parted s cs) :=
  decidable_of_iff _ parted_iff.symm

/-! ## Blanks at the end -/

theorem trim_append_blank {b : Char} (h : isBlank b = true) (s : List Char) :
    trim (s ++ [b]) = trim s := by
  have hend : ∀ t, trimEnd (t ++ [b]) = trimEnd t := by
    intro t
    simp [trimEnd, h]
  rw [trim, trimStart, List.dropWhile_append]
  split
  · rename_i hempty
    simp [trim, trimStart, List.isEmpty_iff.mp hempty, h]
  · rw [hend]
    rfl

/-! ## Cuts -/

theorem cutAt_eq_some_iff {p : Char → Bool} {s front rest : List Char} :
    cutAt p s = some (front, rest) ↔
      ∃ c, s = front ++ c :: rest ∧ p c = true ∧ ∀ d ∈ front, p d = false := by
  induction s generalizing front with
  | nil => simp [cutAt]
  | cons c s ih =>
    by_cases hc : p c = true
    · simp only [cutAt, hc, if_true, Option.some.injEq, Prod.mk.injEq]
      constructor
      · rintro ⟨rfl, rfl⟩
        exact ⟨c, rfl, hc, by simp⟩
      · rintro ⟨d, hs, hd, hfront⟩
        cases front with
        | nil => exact ⟨rfl, (List.cons.inj hs).2⟩
        | cons e front =>
          obtain ⟨rfl, -⟩ := List.cons.inj hs
          simp [hc] at hfront
    · simp only [cutAt, hc, if_false, Bool.false_eq_true, Option.map_eq_some_iff]
      constructor
      · rintro ⟨⟨front', rest'⟩, hcut, heq⟩
        obtain ⟨rfl, rfl⟩ := Prod.mk.inj heq
        obtain ⟨d, rfl, hd, hfront⟩ := ih.mp hcut
        exact ⟨d, rfl, hd, List.forall_mem_cons.mpr ⟨Bool.eq_false_iff.mpr hc, hfront⟩⟩
      · rintro ⟨d, hs, hd, hfront⟩
        cases front with
        | nil =>
          obtain ⟨rfl, -⟩ := List.cons.inj hs
          exact absurd hd hc
        | cons e front =>
          obtain ⟨rfl, rfl⟩ := List.cons.inj hs
          exact ⟨(front, rest), ih.mpr ⟨d, rfl, hd, (List.forall_mem_cons.mp hfront).2⟩, rfl⟩

/-! ## Lines -/

theorem cutLines_of_line {line : List Char} (h : '\n' ∉ line) : cutLines line = [line] := by
  induction line with
  | nil => rfl
  | cons c line ih =>
    rw [List.mem_cons, not_or] at h
    obtain ⟨hc, hline⟩ := h
    rw [cutLines, if_neg (Ne.symm hc), ih hline]
    rfl

/-- Text without a line feed goes to the end of the last piece. -/
theorem cutLines_append_line (s : List Char) {line : List Char} (h : '\n' ∉ line) :
    ∃ front last,
      cutLines s = front ++ [last] ∧ cutLines (s ++ line) = front ++ [last ++ line] := by
  induction s with
  | nil => exact ⟨[], [], rfl, cutLines_of_line h⟩
  | cons c s ih =>
    obtain ⟨front, last, hs, hline⟩ := ih
    by_cases hc : c = '\n'
    · exact ⟨[] :: front, last, by simp [cutLines, hc, hs], by simp [cutLines, hc, hline]⟩
    · cases front with
      | nil =>
        refine ⟨[], c :: last, ?_, ?_⟩
        · simp [cutLines, hc, hs, openColumn]
        · simp [cutLines, hc, hline, openColumn]
      | cons first front =>
        refine ⟨(c :: first) :: front, last, ?_, ?_⟩
        · simp [cutLines, hc, hs, openColumn]
        · simp [cutLines, hc, hline, openColumn]

/-- A rule for one line that reads nothing in an empty line and does not look at a carriage return
in the end. -/
structure LineRule {α : Type} (rule : List Char → Option α) : Prop where
  empty : rule [] = none
  ended : ∀ line, rule (line ++ ['\r']) = rule line

namespace LineRule

variable {α : Type} {rule : List Char → Option α} (h : LineRule rule)

include h

theorem dropReturn_eq (line : List Char) : rule (dropReturn line) = rule line := by
  unfold dropReturn
  split
  · rename_i hlast
    obtain ⟨front, rfl⟩ := List.getLast?_eq_some_iff.mp hlast
    rw [List.dropLast_concat, h.ended]
  · rfl

/-- To such a rule it is all the same how lines end, and whether the last one ends. -/
theorem filterMap_lines (s : List Char) :
    (lines s).filterMap rule = (cutLines s).filterMap rule := by
  have hended : rule ∘ dropReturn = rule := funext h.dropReturn_eq
  obtain ⟨front, last, hs, -⟩ := cutLines_append_line s List.not_mem_nil
  unfold lines
  rw [hs]
  simp only [List.getLast?_append, List.getLast?_singleton, Option.some_or, List.dropLast_concat]
  split
  · rename_i c rest hlast
    obtain rfl := Option.some.inj hlast
    rw [List.filterMap_append, List.filterMap_append, List.filterMap_map, hended]
  · rename_i hlast
    have hempty : last = [] := by
      cases last with
      | nil => rfl
      | cons c rest => exact absurd rfl (hlast c rest)
    rw [hempty, List.filterMap_append, List.filterMap_map, hended]
    simp [h.empty]

theorem filterMap_line_feed (s t : List Char) :
    (lines (s ++ '\n' :: t)).filterMap rule =
      (lines s).filterMap rule ++ (lines t).filterMap rule := by
  rw [h.filterMap_lines, h.filterMap_lines, h.filterMap_lines, cutLines_append_newline,
    List.filterMap_append]

theorem filterMap_return (s : List Char) :
    (lines (s ++ ['\r'])).filterMap rule = (lines s).filterMap rule := by
  obtain ⟨front, last, hs, hreturn⟩ := cutLines_append_line s (show '\n' ∉ ['\r'] by decide)
  rw [h.filterMap_lines, h.filterMap_lines, hs, hreturn, List.filterMap_append,
    List.filterMap_append]
  simp [List.filterMap_cons, h.ended]

theorem filterMap_line {line : List Char} (hline : '\n' ∉ line) :
    (lines line).filterMap rule = (rule line).toList := by
  rw [h.filterMap_lines, cutLines_of_line hline]
  cases hrule : rule line <;> simp [hrule]

end LineRule

end Text

/-! ## Readers -/

/-- A reader takes every text line by line: a text yields what its lines yield, and a line yields
the one thing that it shows, if it shows anything. -/
structure LineByLine {α : Type} (read : String → List α) (Shows : List Char → α → Prop) : Prop where
  append : ∀ a b, ∀ newline ∈ ["\n", "\r\n"], read (a ++ newline ++ b) = read a ++ read b
  joined : ∀ lines : List String, read ("\n".intercalate lines) = lines.flatMap read
  shown : ∀ line : String, '\n' ∉ line.toList → ∀ x, read line = [x] ↔ Shows line.toList x
  nothing : ∀ line : String, '\n' ∉ line.toList → (read line = [] ↔ ∀ x, ¬Shows line.toList x)

namespace Text.LineRule

variable {α : Type} {rule : List Char → Option α} {read : String → List α}
  (h : LineRule rule) (hread : ∀ text, read text = (lines text.toList).filterMap rule)

include h hread

theorem read_append (a b : String) {newline : String} (hnewline : newline ∈ ["\n", "\r\n"]) :
    read (a ++ newline ++ b) = read a ++ read b := by
  rw [hread, hread, hread, String.toList_append, String.toList_append, List.append_assoc]
  obtain rfl | rfl : newline = "\n" ∨ newline = "\r\n" := by simpa using hnewline
  · exact h.filterMap_line_feed a.toList b.toList
  · have hfeed := h.filterMap_line_feed (a.toList ++ ['\r']) b.toList
    rwa [h.filterMap_return, List.append_assoc] at hfeed

theorem read_joined (texts : List String) :
    read ("\n".intercalate texts) = texts.flatMap read := by
  induction texts with
  | nil => exact hread ""
  | cons text texts ih =>
    cases texts with
    | nil => simp
    | cons next texts =>
      rw [String.intercalate_cons_cons, h.read_append hread text _ (by simp), ih]
      rfl

/-- A reader that puts every line to a rule takes texts line by line. -/
theorem lineByLine {Shows : List Char → α → Prop}
    (hrule : ∀ line x, rule line = some x ↔ Shows line x) : LineByLine read Shows where
  append a b _ hnewline := h.read_append hread a b hnewline
  joined := h.read_joined hread
  shown line hline x := by
    rw [hread, h.filterMap_line hline, ← hrule]
    cases rule line.toList <;> simp
  nothing line hline := by
    rw [hread, h.filterMap_line hline]
    simp only [← hrule]
    cases rule line.toList <;> simp

end Text.LineRule

namespace ListedContainer

/-- The line has four columns or more. The first one is the name of a container of a benchmark and
the third one its state, in any letter case. -/
def Shows (line : List Char) (c : ListedContainer) : Prop :=
  ∃ name process state fourth more,
    Text.Parted line (name :: process :: state :: fourth :: more) ∧ Name.Marked name ∧
      c = ⟨String.ofList name, String.ofList (Text.lowercase state)⟩

theorem shows_iff {line : List Char} {c : ListedContainer} :
    ofLine? line = some c ↔ Shows line c := by
  simp only [ofLine?_eq_some_iff, Shows, Text.parted_iff]

theorem lineRule : Text.LineRule ofLine? where
  empty := rfl
  ended line := by
    have hcolumns := Text.columns_append_blank (show Text.isBlank '\r' = true by decide) line []
    rw [show Text.columns [] = [] from rfl, List.append_nil] at hcolumns
    ext c
    rw [ofLine?_eq_some_iff, ofLine?_eq_some_iff, hcolumns]

end ListedContainer

namespace DockerClient

/-- The name of a container of a benchmark stands behind the first blank of the line, perhaps with
further blanks around it, and the id in front of that blank. -/
def Shows (line : List Char) (id : String) : Prop :=
  ∃ front blank rest, line = front ++ blank :: rest ∧ Text.Solid front ∧
    Text.isBlank blank = true ∧ Name.Marked (Text.trim rest) ∧ id = String.ofList front

theorem shows_iff {line : List Char} {id : String} :
    idOfLine? line = some id ↔ Shows line id := by
  rw [idOfLine?_eq_some_iff]
  constructor
  · rintro ⟨front, rest, hcut, hmarked, rfl⟩
    obtain ⟨blank, rfl, hblank, hfront⟩ := Text.cutAt_eq_some_iff.mp hcut
    exact ⟨front, blank, rest, rfl, hfront, hblank, hmarked, rfl⟩
  · rintro ⟨front, blank, rest, rfl, hfront, hblank, hmarked, rfl⟩
    exact ⟨front, rest, Text.cutAt_eq_some_iff.mpr ⟨blank, rfl, hblank, hfront⟩, hmarked, rfl⟩

theorem lineRule : Text.LineRule idOfLine? where
  empty := rfl
  ended line := by
    have hreturn : Text.isBlank '\r' = true := by decide
    ext id
    rw [shows_iff, shows_iff]
    constructor
    · rintro ⟨front, blank, rest, hline, hfront, hblank, hmarked, rfl⟩
      -- the return is not the first blank of the line, since a name stands behind that one
      obtain rfl | ⟨rest, last, rfl⟩ := rest.eq_nil_or_concat
      · have hnone : ¬Name.Marked (Text.trim []) := by decide
        exact absurd hmarked hnone
      · rw [List.concat_eq_append] at hline hmarked
        rw [← List.cons_append, ← List.append_assoc] at hline
        obtain ⟨rfl, hlast⟩ := List.append_inj' hline rfl
        obtain rfl : '\r' = last := List.head_eq_of_cons_eq hlast
        rw [Text.trim_append_blank hreturn] at hmarked
        exact ⟨front, blank, rest, rfl, hfront, hblank, hmarked, rfl⟩
    · rintro ⟨front, blank, rest, rfl, hfront, hblank, hmarked, rfl⟩
      refine ⟨front, blank, rest ++ ['\r'], by simp, hfront, hblank, ?_, rfl⟩
      rwa [Text.trim_append_blank hreturn]

end DockerClient

/-- Both lists are read line by line, whatever stands in them. -/
theorem lists_are_read_line_by_line :
    LineByLine ListedContainer.ofText ListedContainer.Shows ∧
      LineByLine DockerClient.benchmarkIds DockerClient.Shows := by
  constructor
  · exact ListedContainer.lineRule.lineByLine (fun _ => rfl) fun _ _ => ListedContainer.shows_iff
  · exact DockerClient.lineRule.lineByLine (fun _ => rfl) fun _ _ => DockerClient.shows_iff

/-! ## Two lists -/

/-- A heading, a container, a line of two words, nothing, and a container of somebody else. -/
def runtimeLines : List String :=
  ["ID  PID  STATUS  BUNDLE  CREATED", "\tcb-ctr-1-1 4244\u00A0Paused /tmp/bundle root\r",
    "garbage line", "", "someone-else 4343 running /srv/bundle root"]

theorem a_heading_and_foreign_lines_yield_nothing :
    ListedContainer.ofText ("\n".intercalate runtimeLines) = [⟨"cb-ctr-1-1", "paused"⟩] ∧
      DockerClient.benchmarkIds ("1b my-cb-ctr-x" ++ "\r\n" ++ "2c\u00A0 //cb-ctr-validate") =
        ["2c"] := by
  obtain ⟨hruntime, hdocker⟩ := lists_are_read_line_by_line
  constructor
  · have hrow := (hruntime.shown "\tcb-ctr-1-1 4244\u00A0Paused /tmp/bundle root\r" (by decide)
      ⟨"cb-ctr-1-1", "paused"⟩).mpr ⟨"cb-ctr-1-1".toList, "4244".toList, "Paused".toList,
        "/tmp/bundle".toList, ["root".toList], by decide⟩
    have hheading : ListedContainer.ofText "ID  PID  STATUS  BUNDLE  CREATED" = [] := by decide
    have hothers : ["garbage line", "", "someone-else 4343 running /srv/bundle root"].flatMap
        ListedContainer.ofText = [] := by decide
    rw [hruntime.joined, runtimeLines, List.flatMap_cons, List.flatMap_cons, hheading, hrow,
      hothers]
    rfl
  · have hforeign : DockerClient.benchmarkIds "1b my-cb-ctr-x" = [] := by decide
    have hown : DockerClient.benchmarkIds "2c\u00A0 //cb-ctr-validate" = ["2c"] := by
      exact (hdocker.shown _ (by decide) "2c").mpr ⟨"2c".toList, '\u00A0',
        " //cb-ctr-validate".toList, by decide, by decide, by decide, by decide, by decide⟩
    rw [hdocker.append _ _ _ (by simp), hforeign, hown]
    rfl

end EngineBench
