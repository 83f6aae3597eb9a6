-- Tables with round corners, drawn with lines between all rows. A column is as wide as its
-- widest cell.
import EngineBench.Text.Width

namespace EngineBench.Report

/-- A table: rows of cells, the first row being the heading. -/
structure Table where
  rows : List (List String)
  deriving DecidableEq, Repr

namespace Table

/-! ## Cells -/

/-- The lines of a cell, with a blank on either side. A line is closed at a line feed, and where
the next character would leave no room within `room` columns. -/
def cellLines (room : Nat) (text : String) : List (List Char) :=
  go [' '] (Text.markSequences 0 text.toList)
where
  -- `line` is the open line in reverse
  go (line : List Char) : List (Char × Bool) → List (List Char)
    | [] => [(' ' :: line).reverse]
    | (c, hidden) :: rest =>
      if !hidden && c == '\n' then (' ' :: line).reverse :: go [' '] rest
      else if !hidden && decide (room ≤ Text.width line.reverse + 1) then
        (' ' :: line).reverse :: go [c, ' '] rest
      else go (c :: line) rest

/-- The lines of a cell that has all the room it wants. -/
def freeLines (text : String) : List (List Char) :=
  cellLines (2 * text.length + 4) text

def cellWidth (text : String) : Nat := ((freeLines text).map Text.width).foldl max 0

/-! ## Columns and rows -/

/-- The wider of two lists of widths, place by place. -/
def widen : List Nat → List Nat → List Nat
  | [], ws => ws
  | vs, [] => vs
  | v :: vs, w :: ws => max v w :: widen vs ws

def columnWidths (t : Table) : List Nat :=
  t.rows.foldl (fun ws row => widen ws (row.map cellWidth)) []

def padded (room : Nat) (line : List Char) : List Char :=
  line ++ List.replicate (room - Text.width line) ' '

/-- One screen line of a row from the lines of its cells; a cell that has no such line is blank,
and so are the columns behind the last cell. -/
def screenLine (widths : List Nat) (cells : List (List (List Char))) (n : Nat) : List Char :=
  (widths.zipIdx.flatMap fun (w, i) =>
    '│' :: padded w ((cells.getD i []).getD n [])) ++ ['│']

def rowLines (widths : List Nat) (row : List String) : List (List Char) :=
  let cells := (row.zip widths).map fun (text, w) => cellLines w text
  let height := (cells.map List.length).foldl max 1
  (List.range height).map (screenLine widths cells)

/-! ## The drawing -/

/-- A horizontal line with its left end, crossings and right end. -/
def rule (widths : List Nat) (left cross right : Char) : List Char :=
  let runs := widths.map fun w => List.replicate w '─'
  [left] ++ (runs.intersperse [cross]).flatten ++ [right]

/-- Every line of a table, from the upper border to the lower. -/
def drawing (t : Table) : List (List Char) :=
  let widths := t.columnWidths
  match t.rows with
  | [] => []
  | first :: rest =>
    [rule widths '╭' '┬' '╮'] ++ rowLines widths first ++
      (rest.flatMap fun row => rule widths '├' '┼' '┤' :: rowLines widths row) ++
      [rule widths '╰' '┴' '╯']

/-- The drawn table, every line ended by a line feed. -/
def render (t : Table) : String :=
  String.ofList (t.drawing.flatMap fun line => line ++ ['\n'])

end Table

end EngineBench.Report
