import GridCalc.Cell.Reading
import GridCalc.Evaluation.Settle
import GridCalc.Grid.Reading
import GridCalc.Output.Rendering

/-!
# Sessions

A table that is asked, changed and evaluated step by step, together with the settings and the
functions in force. A step that stops leaves what it has done so far. The table is asked for with
a number of rows and columns and needs as many cells as their product says; with a negative number
of them it has no positions, whatever cells there are.
-/

set_option autoImplicit false

namespace GridCalc

structure Session where
  settings : Settings := {}
  functions : Functions := .builtin
  /-- The size that the table was asked for. -/
  rows : Int
  columns : Int
  progress : Progress

namespace Session

variable {α : Type}

def grid (s : Session) : Grid := s.progress.grid

def context (s : Session) : Context := ⟨s.settings.limit, s.functions⟩

def ofGrid (settings : Settings) (g : Grid) : Session :=
  { settings, rows := g.rows, columns := g.columns, progress := { grid := g } }

def blankCells (rows columns : Int) : List Cell := List.replicate (rows * columns).toNat .empty

def ofCells (settings : Settings) (rows columns : Int) (cells : List Cell) (arena : Arena) :
    Except Breakdown Session :=
  if cells.length = rows * columns then
    .ok { settings, rows, columns,
          progress := { grid := .ofCells rows.toNat columns.toNat cells arena } }
  else .error (.quoting [rows * columns, rows, columns] (.cellCount rows columns cells.length))

def evaluating (x : Context → Evaluation α) : Action Session α := fun s =>
  let (result, progress) := x s.context s.progress
  (result, { s with progress })

def parsing (x : Action Arena α) : Action Session α := fun s =>
  let (result, arena) := x s.grid.arena
  (result, { s with progress := { s.progress with grid := { s.grid with arena } } })

def ofBreakdown : Except Breakdown α → Action Session α
  | .ok a => pure a
  | .error b => Action.breakdown b

def evaluate : Action Session Unit := evaluating Evaluation.evaluate

def ensure (p : Position) : Action Session Unit := evaluating fun ctx => Evaluation.ensure ctx p

def formulaValue (here : Position) (formula : String) (shift : Position) :
    Action Session Float := do
  let root ← parsing (Formula.parse formula here)
  evaluating fun ctx => Evaluation.formulaValue ctx root shift

def numbersIn (r : Region) : Action Session (List Float) :=
  evaluating fun ctx => Evaluation.numbersIn ctx r

def outside (s : Session) (p : Position) : Stop :=
  match p.name with
  | .ok name => .breakdown (.quoting [s.rows, s.columns] (.outsideGrid name s.rows s.columns))
  | .error b => .breakdown b

def put (p : Position) (c : Cell) : Action Session Unit := fun s =>
  if s.grid.contains p then (.ok (), { s with progress := s.progress.put p c })
  else (.error (s.outside p), s)

/-- Puts the cell seen at `source` to `p`, as a clone with the given offset stands for it. -/
def putClone (source p : Position) (d : Direction) (offset : Int) : Action Session Unit := do
  let s ← Action.get
  put p ((s.grid.cellAt source).cloned d offset)

def lastShown (s : Session) (row : Int) : Int :=
  if s.columns < 0 then s.columns - 1 else s.grid.lastShown row

def register (f : Function) : Action Session Unit :=
  Action.modify fun s => { s with functions := s.functions.register f }

def setLimit (n : Int) : Action Session Unit := do
  let s ← Action.get
  let settings ← ofBreakdown (s.settings.setLimit n)
  Action.modify fun s => { s with settings }

def setPrecision (n : Option Int) : Action Session Unit := do
  let s ← Action.get
  let settings ← ofBreakdown (s.settings.setPrecision n)
  Action.modify fun s => { s with settings }

end Session

end GridCalc
