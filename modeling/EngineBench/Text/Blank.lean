-- White space, lines and columns of a text. Every reader of engine output in
-- this library goes through these functions, on lists of characters.
namespace EngineBench.Text

/-! ## White space -/

/-- The characters with the Unicode property `White_Space`. -/
def isBlank (c : Char) : Bool :=
  let n := c.toNat
  (9 ≤ n && n ≤ 13) || n == 0x20 || n == 0x85 || n == 0xA0 || n == 0x1680 ||
    (0x2000 ≤ n && n ≤ 0x200A) || n == 0x2028 || n == 0x2029 || n == 0x202F ||
    n == 0x205F || n == 0x3000

def trimStart (s : List Char) : List Char := s.dropWhile isBlank

def trimEnd (s : List Char) : List Char := (s.reverse.dropWhile isBlank).reverse

def trim (s : List Char) : List Char := trimEnd (trimStart s)

/-! ## Columns -/

/-- Adds a character to the column that is open in front of the columns `cs`. -/
def openColumn (c : Char) : List (List Char) → List (List Char)
  | [] => [[c]]
  | w :: ws => (c :: w) :: ws

/-- The maximal runs of characters that are not blank, in order. -/
def columns (s : List Char) : List (List Char) :=
  (go s).filter (· ≠ [])
where
  go : List Char → List (List Char)
    | [] => []
    | c :: s => if isBlank c then [] :: go s else openColumn c (go s)

/-! ## Lines -/

/-- Cuts at every line feed. The text after the last line feed is the last piece. -/
def cutLines : List Char → List (List Char)
  | [] => [[]]
  | c :: s => if c = '\n' then [] :: cutLines s else openColumn c (cutLines s)

/-- Drops one carriage return at the end. -/
def dropReturn (line : List Char) : List Char :=
  match line.getLast? with
  | some '\r' => line.dropLast
  | _ => line

/-- The lines of a text: a line feed, with a carriage return before it, ends a line, and a text
that ends with a line feed has no empty line after it. -/
def lines (s : List Char) : List (List Char) :=
  let pieces := cutLines s
  let ended := pieces.dropLast.map dropReturn
  match pieces.getLast? with
  | some (c :: rest) => ended ++ [c :: rest]
  | _ => ended

theorem cutLines_ne_nil (s : List Char) : cutLines s ≠ [] := by
  cases s with
  | nil => simp [cutLines]
  | cons c s =>
    simp only [cutLines]
    split
    · simp
    · cases cutLines s <;> simp [openColumn]

theorem openColumn_append (c : Char) {ws : List (List Char)} (h : ws ≠ [])
    (more : List (List Char)) : openColumn c (ws ++ more) = openColumn c ws ++ more := by
  cases ws with
  | nil => exact absurd rfl h
  | cons w ws => rfl

theorem cutLines_append_newline (s t : List Char) :
    cutLines (s ++ '\n' :: t) = cutLines s ++ cutLines t := by
  induction s with
  | nil => rfl
  | cons c s ih =>
    simp only [List.cons_append, cutLines]
    split
    · rw [ih, List.cons_append]
    · rw [ih, openColumn_append c (cutLines_ne_nil s)]

/-- What comes after the end of a line changes none of the lines before. -/
theorem lines_append {s : List Char} (ended : s.getLast? = some '\n') (t : List Char) :
    lines (s ++ t) = lines s ++ lines t := by
  obtain ⟨front, rfl⟩ := List.getLast?_eq_some_iff.mp ended
  have hended : ∀ t, lines (front ++ '\n' :: t) = (cutLines front).map dropReturn ++ lines t := by
    intro t
    have hlast := List.getLast?_eq_some_getLast (cutLines_ne_nil t)
    simp only [lines, cutLines_append_newline, List.getLast?_append, hlast, Option.some_or,
      List.dropLast_append_of_ne_nil (cutLines_ne_nil t), List.map_append]
    split <;> simp
  have hnil : lines [] = [] := rfl
  rw [List.append_assoc, List.singleton_append, hended t, hended [], hnil, List.append_nil]

/-! ## Cutting at a character -/

/-- The text before the first character that satisfies `p` and the text after it. -/
def cutAt (p : Char → Bool) : List Char → Option (List Char × List Char)
  | [] => none
  | c :: s => if p c then some ([], s) else (cutAt p s).map fun (a, b) => (c :: a, b)

/-- What is left of `s` after the text `front`, if `s` starts with it. -/
def after : (front s : List Char) → Option (List Char)
  | [], s => some s
  | _ :: _, [] => none
  | c :: front, d :: s => if c = d then after front s else none

end EngineBench.Text
