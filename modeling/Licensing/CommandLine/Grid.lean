import Licensing.CommandLine.Screen
import Licensing.Decimal.Binary

/-! # Grids

A grid shows rows of cells under a row of headings. Columns are as wide as their widest cell and
parted by lines, and a heavy rule stands under the headings.

A grid is at most `screenWidth` cells wide. If it would be wider, its widest columns are narrowed
until it fits, and the texts in them are wrapped.

* `narrow` — the widths of columns that together are not too wide.
* `Grid.render` — the lines of a grid.
-/

namespace Licensing.CommandLine

open Licensing.Text

/-- A column: its heading, and whether its cells stand at the right side. -/
structure Column where
  heading : String
  alignsRight : Bool := false
deriving DecidableEq, Repr

/-- Rows of cells under headings. -/
structure Grid where
  columns : List Column
  rows : List (List String)
deriving DecidableEq, Repr

def screenWidth : Nat := 80

/-! ## Widths -/

/-- Takes `excess` from members of the list that are `widest`, evenly: each gives at most `most`,
and `givers` of them are left. -/
def takeEvenly (widest most : Nat) : (excess givers : Nat) → List Nat → List Nat
  | _, _, [] => []
  | excess, givers, width :: rest =>
    if width = widest && 0 < givers then
      let given := min most (Decimal.roundDiv excess givers)
      (width - given) :: takeEvenly widest most (excess - given) (givers - 1) rest
    else width :: takeEvenly widest most excess givers rest

/-- One round of narrowing: the widest columns give up cells, but do not become narrower than the
next widest one. -/
def narrowOnce (excess : Nat) (widths : List Nat) : List Nat :=
  let widest := widths.foldl max 0
  let next := (widths.filter (· ≠ widest)).foldl max 0
  takeEvenly widest (min excess (widest - next)) excess (widths.count widest) widths

def total (widths : List Nat) : Nat :=
  widths.foldl (· + ·) 0

/-- Narrows the widest columns until together they have at most `room` cells. -/
def narrow (room : Nat) : (rounds : Nat) → List Nat → List Nat
  | 0, widths => widths
  | rounds + 1, widths =>
    if total widths ≤ room then widths
    else narrow room rounds (narrowOnce (total widths - room) widths)

/-! ## Cells -/

/-- The text of a cell as it appears if there is room enough. -/
def cellText (text : String) : List Char :=
  Screen.shownCharacters (Screen.withoutTags text.toList)

def naturalWidth (text : String) : Nat :=
  ((Screen.lines (cellText text)).map width).foldl max 0

/-- The blanks at the left and at the right of the cells of a column: one on each side that touches
another column. -/
def margins (count index : Nat) : Nat × Nat :=
  (if index = 0 then 0 else 1, if index + 1 = count then 0 else 1)

/-- The texts of a column, its heading first. -/
def columnTexts (grid : Grid) (index : Nat) (column : Column) : List String :=
  column.heading :: grid.rows.map fun row => (row[index]?).getD ""

/-- The width of each column, margins included. -/
def Grid.widths (grid : Grid) : List Nat :=
  let count := grid.columns.length
  let room := screenWidth - (count - 1)
  let natural := grid.columns.zipIdx.map fun (column, index) =>
    let (left, right) := margins count index
    let widest := ((columnTexts grid index column).map naturalWidth).foldl max 0
    min room (left + widest + right)
  narrow room (total natural + 1) natural

/-- The lines of a cell in a column, all of the same width. -/
def cellLines (count index width : Nat) (alignsRight : Bool) (text : String) : List (List Char) :=
  let (left, right) := margins count index
  let room := width - left - right
  (Screen.wrap room (cellText text)).map fun line =>
    let filled := if alignsRight then padLeft room (Screen.bare line) else padRight room line
    List.replicate left ' ' ++ filled ++ List.replicate right ' '

/-! ## Rows -/

/-- The lines of a row; cells with fewer lines than others are filled up with blank lines. -/
def rowLines (grid : Grid) (parting : Char) (texts : List String) : List String :=
  let count := grid.columns.length
  let cells := (grid.columns.zip grid.widths).zipIdx.map fun ((column, width), index) =>
    (width, cellLines count index width column.alignsRight ((texts[index]?).getD ""))
  let height := (cells.map fun cell => cell.2.length).foldl max 0
  (List.range height).map fun i =>
    String.ofList (List.intercalate [parting] (cells.map fun (width, lines) =>
      (lines[i]?).getD (List.replicate width ' ')))

def ruleLine (grid : Grid) : String :=
  String.ofList (List.intercalate ['╇'] (grid.widths.map (List.replicate · '━')))

def Grid.render (grid : Grid) : List String :=
  rowLines grid '┃' (grid.columns.map Column.heading) ++ [ruleLine grid] ++
    grid.rows.flatMap (rowLines grid '│')

end Licensing.CommandLine
