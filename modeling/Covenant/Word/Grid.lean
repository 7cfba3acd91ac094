import Covenant.Word.Document

/-!
# The columns of a table

The cells of a row stand side by side from the first column on.  A cell that
continues the one above it is as wide as that cell.
-/

namespace Covenant.Word

/-- A cell with the column where it starts and the number of columns it covers. -/
structure PlacedCell where
  column : Nat
  width : Nat
  cell : Cell

/-- The number of columns of the cell that starts at a column of the row above. -/
def widthAt (column : Nat) (above : List PlacedCell) : Nat :=
  ((above.find? fun placed => placed.column = column).map (·.width)).getD 1

/-- Places the cells of a row from a column on. -/
def placeRow (above : List PlacedCell) : Nat → List Cell → List PlacedCell
  | _, [] => []
  | column, cell :: cells =>
      let width := match cell with
        | .content _ span => span
        | .continued => widthAt column above
      ⟨column, width, cell⟩ :: placeRow above (column + width) cells

/-- Places the cells of rows, each below the one before. -/
def placeRows (above : List PlacedCell) : Table → List (List PlacedCell)
  | [] => []
  | row :: rows =>
      let placed := placeRow above 0 row
      placed :: placeRows placed rows

/-- The row with empty cells in the columns that it leaves free. -/
def fillRow (columns : Nat) (above : List PlacedCell) (row : List Cell) : List Cell :=
  let taken := (placeRow above 0 row).foldl (fun taken placed => taken + placed.width) 0
  row ++ List.replicate (columns - taken) (.content [[]] 1)

/-- Fills rows up to a number of columns, each below the one before. -/
def fillRows (columns : Nat) (above : List PlacedCell) : Table → Table
  | [] => []
  | row :: rows =>
      let row := fillRow columns above row
      row :: fillRows columns (placeRow above 0 row) rows

end Covenant.Word
