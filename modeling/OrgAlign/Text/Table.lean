import OrgAlign.Text.Ascii
import OrgAlign.Text.Width

/-!
# Tables

A table in a frame with round corners: a head, a line below it, and one row after the other. A cell
may have several lines; every column is as wide as its widest line and has a blank on both sides.
-/

namespace OrgAlign.Text.Table

/-- The lines of a cell. -/
abbrev Cell := List (List Char)

/-- The lines of a text. -/
def cellOf (text : String) : Cell := splitAt '\n' text.toList

/-- The columns that a cell takes. -/
def cellWidth (c : Cell) : Nat := (c.map width).foldl max 0

/-- The widths of columns, given the width of each cell in each row. -/
def columnWidths : List (List Cell) → List Nat
  | [] => []
  | [row] => row.map cellWidth
  | row :: rows => List.zipWith max (row.map cellWidth) (columnWidths rows)

/-- The characters of a horizontal line. -/
structure Rule where
  /-- At its left end. -/
  left : Char
  /-- Where a column ends and the next one begins. -/
  middle : Char
  /-- At its right end. -/
  right : Char

/-- The line above the head. -/
def topRule : Rule := ⟨'╭', '┬', '╮'⟩

/-- The line below the head. -/
def headRule : Rule := ⟨'├', '┼', '┤'⟩

/-- The line below the last row. -/
def bottomRule : Rule := ⟨'╰', '┴', '╯'⟩

/-- The characters between columns. -/
def wall : Char := '│'

/-- The blanks on one side of a cell. -/
def margin : Nat := 1

/-- Parts with a character between any two of them. -/
def joined (c : Char) (parts : List (List Char)) : List Char := List.intercalate [c] parts

/-- A horizontal line. -/
def ruleLine (widths : List Nat) (r : Rule) : List Char :=
  r.left :: joined r.middle (widths.map fun n => List.replicate (n + 2 * margin) '─') ++ [r.right]

/-- A line of a cell with blanks around it, to a given width. -/
def padded (columns : Nat) (line : List Char) : List Char :=
  List.replicate margin ' ' ++ line ++ List.replicate (columns - width line + margin) ' '

/-- One line of a row: the line with this number of each cell. -/
def rowLine (widths : List Nat) (row : List Cell) (n : Nat) : List Char :=
  let parts := List.zipWith (fun columns cell => padded columns ((cell[n]?).getD [])) widths row
  wall :: joined wall parts ++ [wall]

/-- The lines of a row. -/
def rowLines (widths : List Nat) (row : List Cell) : List (List Char) :=
  (List.range ((row.map List.length).foldl max 1)).map (rowLine widths row)

/-- A table with a head and rows, without a line end behind it. -/
def render (head : List String) (rows : List (List String)) : String :=
  let head := head.map cellOf
  let rows := rows.map fun row => row.map cellOf
  let widths := columnWidths (head :: rows)
  String.ofList (joined '\n'
    ([ruleLine widths topRule] ++ rowLines widths head ++ [ruleLine widths headRule] ++
      rows.flatMap (rowLines widths) ++ [ruleLine widths bottomRule]))

end OrgAlign.Text.Table
