import GridCalc.Event
import GridCalc.Function
import GridCalc.Grid

/-!
# The state of an evaluation

An evaluation changes the cells of a grid, counts how deep it is nested and reports events. A cell
that is being worked out is active. While it is, whoever asks for it again depends on its own
value, and the cell becomes the fault of a loop at once; so a computation that has worked out an
active cell only needs to see whether the cell is still active, and otherwise leaves it alone.
-/

set_option autoImplicit false

namespace GridCalc

structure Progress where
  grid : Grid
  /-- Nested evaluations of cells and parts of formulas under way. -/
  depth : Nat := 0
  /-- The greatest depth there has been. -/
  deepest : Nat := 0
  log : Array Event := #[]

/-- What stays fixed during an evaluation: the depth from which no further cell is begun, and the
functions that formulas may call. -/
structure Context where
  limit : Nat
  functions : Functions

namespace Progress

def note (s : Progress) (e : Event) : Progress := { s with log := s.log.push e }

def put (s : Progress) (p : Position) (c : Cell) : Progress := { s with grid := s.grid.set p c }

def isActive (s : Progress) (p : Position) : Bool :=
  match s.grid.cell? p with
  | some c => c.phase == .active
  | none => false

def mark (s : Progress) (p : Position) (phase : Phase) : Progress :=
  match s.grid.cell? p with
  | some c => s.put p { c with phase }
  | none => s

/-- The cell at a position waits again, unless it has been settled in the meantime. -/
def release (s : Progress) (p : Position) : Progress :=
  if s.isActive p then s.mark p .pending else s

def finish (s : Progress) (p : Position) (c : Cell) : Progress :=
  if s.isActive p then s.put p c else s

theorem isActive_iff {s : Progress} {p : Position} :
    s.isActive p ↔ s.grid.phase p = .active := by
  by_cases hp : s.grid.contains p
  · rw [isActive, Grid.cell?_of_contains hp]
    exact beq_iff_eq
  · rw [isActive, Grid.cell?, if_neg hp, Grid.phase, Grid.cellAt_of_not_contains hp]
    simp [Cell.ofFault]

theorem grid_put (s : Progress) (p : Position) (c : Cell) :
    (s.put p c).grid = s.grid.set p c := rfl

theorem grid_mark (s : Progress) (p : Position) (phase : Phase) :
    (s.mark p phase).grid = s.grid.set p { s.grid.cellAt p with phase } := by
  by_cases hp : s.grid.contains p
  · rw [mark, Grid.cell?_of_contains hp, grid_put]
  · rw [mark, Grid.cell?, if_neg hp, Grid.set_of_not_contains hp]

theorem depth_mark (s : Progress) (p : Position) (phase : Phase) :
    (s.mark p phase).depth = s.depth := by
  unfold mark
  split <;> rfl

theorem depth_release (s : Progress) (p : Position) : (s.release p).depth = s.depth := by
  unfold release
  split
  · exact depth_mark s p .pending
  · rfl

theorem depth_finish (s : Progress) (p : Position) (c : Cell) :
    (s.finish p c).depth = s.depth := by
  unfold finish
  split <;> rfl

end Progress

abbrev Evaluation := Action Progress

namespace Evaluation

variable {α : Type}

def ofBreakdown : Except Breakdown α → Evaluation α
  | .ok a => pure a
  | .error b => Action.breakdown b

def ofFault : Except Fault α → Evaluation α
  | .ok a => pure a
  | .error f => Action.fault f

def note (e : Event) : Evaluation Unit := Action.modify (·.note e)

def cellAt (p : Position) : Evaluation Cell := fun s => (.ok (s.grid.cellAt p), s)

def isActive (p : Position) : Evaluation Bool := fun s => (.ok (s.isActive p), s)

def containsRegion (r : Region) : Evaluation Bool := fun s =>
  (.ok (decide (s.grid.contains r.start ∧ s.grid.contains r.finish)), s)

def nodeAt (id : NodeId) : Evaluation Node := fun s =>
  (match s.grid.arena.find id with
    | .ok n => .ok n
    | .error b => .error (.breakdown b), s)

def nested (x : Evaluation α) : Evaluation α := fun s =>
  let (result, t) := x { s with depth := s.depth + 1, deepest := max s.deepest (s.depth + 1) }
  (result, { t with depth := t.depth - 1 })

/-- Works out the cell at a position: it is active meanwhile, and waits again if what it needs
lies too deep. -/
def attempt (p : Position) (x : Evaluation Unit) : Evaluation Unit := fun s =>
  match nested x (s.mark p .active) with
  | (.error (.tooDeep q name), t) => (.error (.tooDeep q name), t.release p)
  | result => result

end Evaluation

end GridCalc
