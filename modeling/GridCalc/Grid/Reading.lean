import GridCalc.Cell.Reading
import GridCalc.Event
import GridCalc.Grid
import GridCalc.Text.Lines

/-!
# Reading tables

Each line of a text is a row of cells with bars between them, or three points and a count: that
many copies of the row above, each made of clones of the cells above it. All rows are filled up
with empty cells to the length of the longest.
-/

set_option autoImplicit false

namespace GridCalc
open Text

inductive Line where
  /-- The texts of a row of cells. -/
  | row (texts : List (List Char))
  | copies (count : Nat)
  deriving DecidableEq, Repr

namespace Line

def mark : List Char := ['.', '.', '.']

def ofText (number : Nat) (text : List Char) : Except Stop Line :=
  let text := trim text
  if mark.isPrefixOf text then
    let count := trim (text.drop mark.length)
    if count.isEmpty || !count.all isDigit then
      .error (.fault (.malformedRepeat (String.ofList count) number))
    else match natural count with
      | .ok n => .ok (.copies n)
      | .error m => .error (.breakdown (.ofMisreading count m))
  else .ok (.row (fields '|' text))

def ofTexts (number : Nat) : List (List Char) → Except Stop (List Line)
  | [] => .ok []
  | t :: ts => do
    let line ← ofText number t
    let rest ← ofTexts (number + 1) ts
    return line :: rest

def all (text : String) : Except Stop (List Line) := ofTexts 1 (lines text.toList)

def rows : Line → Nat
  | row _ => 1
  | copies n => n

def columns : Line → Nat
  | row texts => texts.length
  | copies _ => 0

end Line

def rowCount (ls : List Line) : Nat := ls.foldl (fun n l => n + l.rows) 0

def columnCountOf (ls : List Line) : Nat := ls.foldl (fun n l => max n l.columns) 0

/-- The rows and columns of the table that a text describes. -/
def tableSize (text : String) : Except Stop (Nat × Nat) :=
  (Line.all text).map fun ls => (rowCount ls, columnCountOf ls)

structure Draft (columns : Nat) where
  rows : Array (Vector Cell columns) := #[]
  arena : Arena := .empty
  log : Array Event := #[]

namespace Draft

variable {columns : Nat}

def filled (columns : Nat) (cells : List Cell) : Vector Cell columns :=
  let cells := cells.toArray
  Vector.ofFn fun (c : Fin columns) => cells.getD c .empty

def cellsFrom (row : Nat) : Nat → List (List Char) → Action Arena (List Cell)
  | _, [] => pure []
  | column, t :: ts => do
    let cell ← Cell.ofText ⟨row, column⟩ (String.ofList (trim t))
    let rest ← cellsFrom row (column + 1) ts
    pure (cell :: rest)

def repeatLast (rows : Array (Vector Cell columns)) : Nat → Array (Vector Cell columns)
  | 0 => rows
  | n + 1 =>
    let last := rows.back?.getD (Vector.replicate columns .empty)
    repeatLast (rows.push (last.map (·.cloned .up 1))) n

def addLine (d : Draft columns) : Line → Except Stop (Draft columns)
  | .row texts =>
    match cellsFrom d.rows.size 0 texts d.arena with
    | (.ok cells, arena) => .ok { d with rows := d.rows.push (filled columns cells), arena }
    | (.error e, _) => .error e
  | .copies n =>
    if d.rows.isEmpty then
      .ok { d with
        rows := Array.replicate n (Vector.replicate columns (.ofFault .nothingAbove))
        log := d.log.push .repeatAboveTable }
    else .ok { d with rows := repeatLast d.rows n }

def addLines (d : Draft columns) : List Line → Except Stop (Draft columns)
  | [] => .ok d
  | l :: ls => do
    let d ← d.addLine l
    d.addLines ls

def toGrid (d : Draft columns) : Grid := ⟨d.rows.size, columns, d.rows.toVector, d.arena⟩

end Draft

namespace Grid

def ofText (text : String) : Except Stop (Grid × Array Event) := do
  let ls ← Line.all text
  let draft ← ({} : Draft (columnCountOf ls)).addLines ls
  return (draft.toGrid, draft.log)

end Grid

end GridCalc
