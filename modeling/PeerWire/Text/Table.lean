import PeerWire.Text.Pieces
import PeerWire.Text.Width

/-! # Tables

Cells in columns as wide as their widest line, drawn with box characters. A row has as many lines as
its highest cell. -/

namespace PeerWire.Text

/-- A header and rows below it. -/
structure Table where
  /-- What stands above each column. -/
  header : List String
  /-- The rows, with one cell for each column. -/
  rows : List (List String)
  deriving DecidableEq, Repr

namespace Table

/-- The characters of a horizontal line: at its left end, along a cell, between two cells, and at
its right end. -/
structure Line where
  /-- The left end. -/
  left : String
  /-- Along a cell. -/
  along : Char
  /-- Between two cells. -/
  cross : String
  /-- The right end. -/
  right : String
  deriving DecidableEq, Repr

/-- The line above the header. -/
def topLine : Line := ⟨"┌", '─', "┬", "┐"⟩

/-- The line below the header. -/
def headerLine : Line := ⟨"╞", '═', "╪", "╡"⟩

/-- The line between two rows. -/
def rowLine : Line := ⟨"├", '╌', "┼", "┤"⟩

/-- The line below the last row. -/
def bottomLine : Line := ⟨"└", '─', "┴", "┘"⟩

/-- Draws a line over columns of the given widths; a cell has a blank on either side. -/
def Line.draw (line : Line) (widths : List Nat) : String :=
  line.left ++
    line.cross.intercalate (widths.map fun width =>
      String.ofList (List.replicate (width + 2) line.along)) ++
    line.right

/-- The width of a cell: that of its widest line. -/
def cellWidth (cell : String) : Nat :=
  ((Text.lines cell).map displayWidth).foldl max 0

/-- A line of a cell, filled up to `width`, which is that of its column. -/
def drawCell (width : Nat) (line : String) : String :=
  " " ++ line ++ String.ofList (List.replicate (width - displayWidth line) ' ') ++ " "

/-- The lines of a row of cells, with `┆` between the cells and `│` around them. A cell with fewer
lines than others is blank below them. -/
def drawRow (widths : List Nat) (cells : List String) : List String :=
  let columns := cells.map Text.lines
  let height := (columns.map List.length).foldl max 0
  (List.range height).map fun index =>
    "│" ++ "┆".intercalate (widths.zipWith (fun width lines => drawCell width (lines.getD index ""))
      columns) ++ "│"

/-- The width of each column. -/
def widths (table : Table) : List Nat :=
  table.rows.foldl (fun widths row => widths.zipWith max (row.map cellWidth))
    (table.header.map cellWidth)

/-- The drawn lines, from top to bottom. -/
def lines (table : Table) : List String :=
  [topLine.draw table.widths] ++ drawRow table.widths table.header ++
    [headerLine.draw table.widths] ++
    ((table.rows.map (drawRow table.widths)).intersperse [rowLine.draw table.widths]).flatten ++
    [bottomLine.draw table.widths]

end Table

end PeerWire.Text
