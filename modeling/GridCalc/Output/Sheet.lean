import GridCalc.Decimal.Reading
import GridCalc.Grid

/-!
# Sheets of a workbook

The values of a table as they stand in a sheet, from a given corner on: faults in red, separators
as a line below the cell. Columns are as wide as their longest text and two more, within bounds.
A sheet that has been saved and read again has numbers of 16 significant digits, zero without a
sign, and nothing in the place of infinities.
-/

set_option autoImplicit false

namespace GridCalc

structure SheetCell where
  row : Nat
  column : Nat
  value : CellValue
  red : Bool
  ruled : Bool
  deriving Repr

structure Sheet where
  title : String
  cells : List SheetCell
  widths : List Float
  deriving Repr

namespace SheetCell

def isVisible (c : SheetCell) : Bool :=
  c.red || c.ruled || (match c.value with
    | .none => false
    | _ => true)

def nameOf (c : SheetCell) : Except Breakdown String :=
  (columnName c.column).map fun letters => letters ++ toString c.row

end SheetCell

namespace Sheet

def isUnwritable (c : Char) : Bool :=
  let n := c.toNat
  n < 9 || n == 11 || n == 12 || (14 ≤ n && n < 32)

def longestText : Nat := 32767

def lastRow : Nat := 1048576

def written : CellValue → Except Breakdown CellValue
  | .text s =>
    let kept := s.toList.take longestText
    if kept.any isUnwritable then .error (.unwritableText (String.ofList kept))
    else .ok (.text (String.ofList kept))
  | v => .ok v

/-- The cell of a sheet that shows the cell of a table at `p`, in a sheet whose corner is at the
given row and column. -/
def place (row column : Int) (p : Position) (c : Cell) : Except Breakdown SheetCell :=
  let r := row + p.row
  let k := column + p.column
  if r < 1 ∨ k < 1 then .error .sheetCorner
  else if lastRow < r then .error (.quoting [r] (.sheetRow r))
  else match c.content with
    | .separator => .ok ⟨r.toNat, k.toNat, .none, false, true⟩
    | .error _ => (written c.value).map fun v => ⟨r.toNat, k.toNat, v, true, false⟩
    | _ => (written c.value).map fun v => ⟨r.toNat, k.toNat, v, false, false⟩

def textLength : CellValue → Nat
  | .none => 0
  | .text s => s.length
  | .number x => (Decimal.exact x).length

def atMost (x y : Float) : Float := if y < x then y else x

def atLeast (x y : Float) : Float := if x < y then y else x

/-- The width for a longest text, between the bounds; the lower bound wins. -/
def widthFor (least most : Float) (length : Nat) : Float :=
  atLeast least (atMost (Float.ofNat (length + 2)) most)

def longest (cells : List SheetCell) (column : Nat) : Nat :=
  cells.foldl (fun n c => if c.column = column then max n (textLength c.value) else n) 0

def usedColumns (cells : List SheetCell) : Nat := cells.foldl (fun n c => max n c.column) 0

def resize (s : Sheet) (least most : Float) : Except Breakdown Sheet := do
  let names ← (List.range (usedColumns s.cells)).mapM fun k => columnName (k + 1 : Nat)
  return { s with
    widths := (List.range names.length).map fun k =>
      widthFor least most (longest s.cells (k + 1)) }

def defaultLeast : Float := 0.0

def defaultMost : Float := 50.0

def firstTitle : String := "Sheet"

def ofGrid (row column : Int) (g : Grid) : Except Breakdown Sheet := do
  let cells ← g.positions.mapM fun p => place row column p (g.cellAt p)
  resize ⟨firstTitle, cells, []⟩ defaultLeast defaultMost

def isReserved (c : Char) : Bool := ['\\', '*', '?', ':', '/', '[', ']'].contains c

/-- A sheet's new title. One that differs from the old title in case only gets a number. -/
def retitle (s : Sheet) (title : String) : Except Breakdown Sheet :=
  if title = "" then .error .emptyTitle
  else match title.toList.find? isReserved with
  | some c => .error (.unwritableTitle c)
  | none =>
    if title ≠ s.title ∧ Text.lower title = Text.lower s.title then
      .ok { s with title := title ++ "1" }
    else .ok { s with title }

def savedValue : CellValue → CellValue
  | .number x =>
    if x.isFinite then
      match Decimal.read? (Decimal.significant 16 x) with
      | some y => .number (if y == 0.0 then 0.0 else y)
      | none => .none
    else .none
  | v => v

def saved (s : Sheet) : Sheet :=
  { s with cells := s.cells.map fun c => { c with value := savedValue c.value } }

def titled (title : String) (g : Grid) : Except Breakdown Sheet := do
  let named ← retitle ⟨firstTitle, [], []⟩ title
  let s ← ofGrid 1 1 g
  return { s with title := named.title }

end Sheet

end GridCalc
