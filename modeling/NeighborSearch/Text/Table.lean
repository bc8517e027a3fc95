import NeighborSearch.Text.Split
import NeighborSearch.Text.Width

/-!
# Text tables

A table is drawn with rounded corners, a double line under its header and a dashed line between its
rows. A cell may have several lines. Each column is as wide as its widest line, and at least one
column of the terminal; rows that are shorter than the table are filled with empty cells.
-/

namespace NeighborSearch.Text

/-- The side at which the text of a cell stands. -/
inductive Alignment where
  | left
  | right
deriving DecidableEq, Repr

/-- A cell of a table. -/
structure Cell where
  text : String
  alignment : Alignment := .left
deriving DecidableEq, Repr

/-- A table. -/
structure Table where
  header : Option (List Cell) := none
  rows : List (List Cell)

namespace Cell

/-- The lines of a cell. -/
def lines (cell : Cell) : List (List Char) :=
  splitOn '\n' cell.text.toList

/-- The columns of its widest line. -/
def width (cell : Cell) : Nat :=
  (cell.lines.map Text.width).foldl max 0

end Cell

/-- `n` blanks. -/
def blanks (n : Nat) : List Char :=
  List.replicate n ' '

/-- Text filled with blanks to a width, with one more blank on each side. -/
def padded (width : Nat) (alignment : Alignment) (text : List Char) : List Char :=
  let fill := blanks (width - Text.width text)
  match alignment with
  | .left => ' ' :: text ++ fill ++ [' ']
  | .right => ' ' :: fill ++ text ++ [' ']

/-- A line of a cell in a column; below its last line a cell is blank. -/
def Cell.line (cell : Cell) (width i : Nat) : List Char :=
  match cell.lines[i]? with
  | some text => padded width cell.alignment text
  | none => blanks (width + 2)

/-- The characters of a horizontal line. -/
structure Rule where
  left : Char
  fill : Char
  cross : Char
  right : Char

namespace Rule

/-- The line above a table. -/
def top : Rule := ⟨'╭', '─', '┬', '╮'⟩

/-- The line under a header. -/
def underHeader : Rule := ⟨'╞', '═', '╪', '╡'⟩

/-- The line between two rows. -/
def between : Rule := ⟨'├', '╌', '┼', '┤'⟩

/-- The line below a table. -/
def bottom : Rule := ⟨'╰', '─', '┴', '╯'⟩

/-- The line over columns of these widths. -/
def draw (rule : Rule) (widths : List Nat) : List Char :=
  rule.left
    :: [rule.cross].intercalate (widths.map fun width => List.replicate (width + 2) rule.fill)
    ++ [rule.right]

end Rule

/-- A line of a row from the lines of its cells. -/
def joinCells (cells : List (List Char)) : List Char :=
  '│' :: ['┆'].intercalate cells ++ ['│']

/-- The cells of a row, one for each column. -/
def fillRow (row : List Cell) (columns : Nat) : List Cell :=
  row ++ List.replicate (columns - row.length) ⟨"", .left⟩

/-- The number of lines of a row. -/
def height (row : List Cell) : Nat :=
  (row.map fun cell => cell.lines.length).foldl max 0

/-- The lines of a row that has a cell for each column. -/
def drawRow (widths : List Nat) (row : List Cell) : List (List Char) :=
  (List.range (height row)).map fun i =>
    joinCells (List.zipWith (fun cell width => cell.line width i) row widths)

namespace Table

/-- The header, if there is one, and the rows. -/
def allRows (table : Table) : List (List Cell) :=
  table.header.toList ++ table.rows

/-- The number of columns. -/
def columns (table : Table) : Nat :=
  (table.allRows.map List.length).foldl max 0

/-- The width of a column. -/
def columnWidth (table : Table) (i : Nat) : Nat :=
  (table.allRows.filterMap fun row => row[i]?.map Cell.width).foldl max 1

/-- The widths of all columns. -/
def widths (table : Table) : List Nat :=
  (List.range table.columns).map table.columnWidth

/-- The lines of a row in columns of these widths. -/
def rowLines (widths : List Nat) (row : List Cell) : List (List Char) :=
  drawRow widths (fillRow row widths.length)

/-- The header and the line under it. -/
def headerLines (table : Table) (widths : List Nat) : List (List Char) :=
  match table.header with
  | none => []
  | some header => rowLines widths header ++ [Rule.underHeader.draw widths]

/-- The rows and the lines between them. -/
def bodyLines (table : Table) (widths : List Nat) : List (List Char) :=
  [Rule.between.draw widths].intercalate (table.rows.map (rowLines widths))

/-- The lines of a table. -/
def lines (table : Table) : List (List Char) :=
  let widths := table.widths
  Rule.top.draw widths :: table.headerLines widths ++ table.bodyLines widths
    ++ [Rule.bottom.draw widths]

/-- The text of a table, without a newline at its end. -/
def toText (table : Table) : String :=
  String.ofList (['\n'].intercalate table.lines)

/-- A table with a header and rows of plain text. -/
def ofTexts (header : Option (List String)) (rows : List (List String)) : Table where
  header := header.map fun cells => cells.map fun text => { text }
  rows := rows.map fun cells => cells.map fun text => { text }

end Table

end NeighborSearch.Text
