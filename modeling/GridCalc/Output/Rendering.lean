import GridCalc.Grid
import GridCalc.Text.Lines

/-!
# Rendering

A table is shown with its cells aligned to the right in columns of equal width, bars between the
columns, and no cells after the last that is not empty. A separator is a rule across its column.
-/

set_option autoImplicit false

namespace GridCalc.Grid
open GridCalc GridCalc.Text

def forCells {α : Type} (g : Grid) (f : Cell → Except Breakdown α) :
    Except Breakdown (List (List α)) :=
  g.cells.toList.mapM fun row => row.toList.mapM f

def texts (settings : Settings) (g : Grid) : Except Breakdown (List (List String)) :=
  g.forCells (·.text settings)

def widen : List Nat → List String → List Nat
  | w :: ws, t :: ts => max w t.length :: widen ws ts
  | ws, _ => ws

def widthsOf (columns : Nat) (rows : List (List String)) : List Nat :=
  rows.foldl widen (List.replicate columns 0)

def widths (settings : Settings) (g : Grid) : Except Breakdown (List Nat) :=
  (g.texts settings).map (widthsOf g.columns)

/-- The last of the first `n + 1` columns of a row that is not empty, or the first. -/
def lastFilled (g : Grid) (row : Int) : Nat → Nat
  | 0 => 0
  | n + 1 => if g.isEmptyAt ⟨row, n + 1⟩ then g.lastFilled row n else n + 1

/-- The last column of a row that is shown; a table without columns has none. -/
def lastShown (g : Grid) (row : Int) : Int :=
  match g.columns with
  | 0 => -1
  | n + 1 => g.lastFilled row n

def aligned (width : Nat) (c : Cell) (text : String) : List Char :=
  alignRight width (if c.content.isSeparator then List.replicate width '_' else text.toList)

def alignedRow : List Nat → List Cell → List String → List (List Char)
  | w :: ws, c :: cs, t :: ts => aligned w c t :: alignedRow ws cs ts
  | _, _, _ => []

def bar : List Char := [' ', '|', ' ']

def renderRow (g : Grid) (widths : List Nat) (row : Nat) (cells : List Cell)
    (texts : List String) : List Char :=
  let shown := (g.lastShown row + 1).toNat
  bar.intercalate ((alignedRow widths cells texts).take shown)

def renderRows (g : Grid) (widths : List Nat) :
    Nat → List (List Cell) → List (List String) → List Char
  | row, cells :: rows, texts :: rest =>
    g.renderRow widths row cells texts ++ '\n' :: g.renderRows widths (row + 1) rows rest
  | _, _, _ => []

def render (settings : Settings) (g : Grid) : Except Breakdown String := do
  let texts ← g.texts settings
  let cells := g.cells.toList.map (·.toList)
  return String.ofList (g.renderRows (widthsOf g.columns texts) 0 cells texts)

end GridCalc.Grid
