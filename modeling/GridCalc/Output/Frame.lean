import GridCalc.Grid

/-!
# Data frames

The values of a table as a frame: columns with their letters, rows with their numbers from one.
A number that is none, such as the difference of two infinities, is missing like an empty cell.
-/

set_option autoImplicit false

namespace GridCalc

structure Frame where
  columns : List String
  index : List Nat
  values : List (List CellValue)
  deriving Repr

def CellValue.present : CellValue → CellValue
  | number x => if x.isNaN then none else number x
  | v => v

def columnNames (n : Nat) : Except Breakdown (List String) :=
  (List.range n).mapM fun k => columnName (k + 1 : Nat)

def Grid.frame (g : Grid) : Except Breakdown Frame := do
  let columns ← columnNames g.columns
  return {
    columns
    index := (List.range g.rows).map (· + 1)
    values := g.cells.toList.map fun row => row.toList.map fun c => c.value.present }

end GridCalc
