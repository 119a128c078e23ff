import GridCalc.Evaluation.Value

/-!
# Settling cells

A cell is settled the first time it is asked for and keeps its result. Working out a cell asks for
the cells it depends on, each one level further in; from the limit on no further formula or clone
is begun, and the whole chain of cells under way is unwound to wait. It is then taken up again
from the cell that was out of reach, and the waiting cells follow. A chain that comes back to a
cell already waiting is a loop.
-/

set_option autoImplicit false

namespace GridCalc.Evaluation
open GridCalc

def outOfReach (p : Position) : Evaluation Unit := do
  let name ← ofBreakdown p.name
  Action.stop (.tooDeep p name)

/-- A manner of evaluation: how formulas are worked out, for a given way to have cells settled, and
how a cell that is out of reach stops them. -/
structure Manner where
  value : (Position → Evaluation Unit) → Functions → Position → NodeId → Evaluation Float
  far : Position → Evaluation Unit

def Manner.chained : Manner := ⟨rootValue, outOfReach⟩

@[simp] theorem Manner.value_chained : Manner.chained.value = rootValue := rfl

section

variable (m : Manner) (ctx : Context)

def settleFormulaBy (ask : Position → Evaluation Unit) (p : Position) (root : NodeId)
    (shift : Position) : Evaluation Unit :=
  attempt p fun s =>
    match m.value ask ctx.functions shift root s with
    | (.ok x, t) => (.ok (), t.finish p ⟨.formula root shift x, .done⟩)
    | (.error (.fault f), t) => (.ok (), t.finish p (.ofFault f))
    | (.error e, t) => (.error e, t)

def settleCloneBy (ask : Position → Evaluation Unit) (p : Position) (d : Direction)
    (offset : Int) : Evaluation Unit :=
  let source := p.move d offset
  attempt p do
    ask source
    if ← isActive p then do
      let seen ← cellAt source
      let copy := seen.cloned d offset
      let name ← ofBreakdown p.name
      let sourceName ← ofBreakdown source.name
      note (.cloned name sourceName copy.content.label)
      match copy.content with
      | .formula root shift _ =>
        Action.modify (·.put p copy)
        settleFormulaBy m ctx ask p root shift
      | content => Action.modify (·.put p ⟨content, .done⟩)

/-- Settles the cell at `p`; `deeper` does so one level further in, if there is a level left. -/
def settleStepBy (deeper : Option (Position → Evaluation Unit)) (p : Position) :
    Evaluation Unit := do
  let s ← Action.get
  match s.grid.cell? p with
  | none => pure ()
  | some c =>
    match c.phase with
    | .done => pure ()
    | .active => do
      let name ← ofBreakdown p.name
      note (.cycle name)
      Action.modify (·.put p (.ofFault .loop))
    | .pending =>
      if !c.content.isDeferred then Action.modify (·.mark p .done)
      else if ctx.limit ≤ s.depth then m.far p
      else match deeper, c.content with
        | some ask, .formula root shift _ => settleFormulaBy m ctx ask p root shift
        | some ask, .clone d offset => settleCloneBy m ctx ask p d offset
        | _, _ => m.far p

def settleWithinBy : Nat → Position → Evaluation Unit
  | 0 => settleStepBy m ctx none
  | levels + 1 => settleStepBy m ctx (some (settleWithinBy levels))

def valueBy (root : NodeId) (shift : Position) : Evaluation Float :=
  m.value (settleWithinBy m ctx ctx.limit) ctx.functions shift root

end

section

variable (settle : Position → Evaluation Unit)

/-- One step towards settling the first of the waiting cells, each of which the next one waits
for: it is settled, or a cell out of reach comes before it, or the loop they form is broken. -/
def restartStepBy : List Position → Evaluation (List Position)
  | [] => pure []
  | p :: rest => fun s =>
    match settle p s with
    | (.ok (), t) => (.ok rest, t)
    | (.error (.tooDeep q name), t) =>
      if q ∈ p :: rest then (.ok (p :: rest), (t.note (.cycle name)).put q (.ofFault .loop))
      else (.ok (q :: p :: rest), t.note (.resuming name))
    | (.error e, t) => (.error e, t)

def restartBy : Nat → List Position → Evaluation Unit
  | 0, _ => pure ()
  | _, [] => pure ()
  | n + 1, waiting => do
    let waiting ← restartStepBy settle waiting
    restartBy n waiting

/-- The steps that always suffice: each cell comes to wait, is settled and breaks a loop at most
once. -/
def restartBound (g : Grid) : Nat := 3 * (g.rows * g.columns) + 1

def ensureBy (p : Position) : Evaluation Unit := fun s =>
  restartBy settle (restartBound s.grid) [p] s

def ensureAllBy : List Position → Evaluation Unit
  | [] => pure ()
  | p :: ps => do
    ensureBy settle p
    ensureAllBy ps

end

variable (ctx : Context)

def settleFormula : (Position → Evaluation Unit) → Position → NodeId → Position → Evaluation Unit :=
  settleFormulaBy .chained ctx

def settleClone :
    (Position → Evaluation Unit) → Position → Direction → Int → Evaluation Unit :=
  settleCloneBy .chained ctx

def settleStep : Option (Position → Evaluation Unit) → Position → Evaluation Unit :=
  settleStepBy .chained ctx

def settleWithin : Nat → Position → Evaluation Unit := settleWithinBy .chained ctx

/-- Settles a cell, or stops at one that is out of reach. Every cell under way is a level deeper,
so there are never more of them than the limit allows. -/
def settle : Position → Evaluation Unit := settleWithin ctx ctx.limit

def restartStep : List Position → Evaluation (List Position) := restartStepBy (settle ctx)

def restart : Nat → List Position → Evaluation Unit := restartBy (settle ctx)

def ensure : Position → Evaluation Unit := ensureBy (settle ctx)

def ensureAll : List Position → Evaluation Unit := ensureAllBy (settle ctx)

def evaluate : Evaluation Unit := fun s =>
  ensureAll ctx s.grid.positions s

def formulaValue (root : NodeId) (shift : Position) : Evaluation Float :=
  valueBy .chained ctx root shift

def numbersIn (r : Region) : Evaluation (List Float) := regionValues (settle ctx) r

theorem restart_cons (n : Nat) (p : Position) (rest : List Position) :
    restart ctx (n + 1) (p :: rest) = restartStep ctx (p :: rest) >>= restart ctx n := rfl

theorem ensureAll_cons (p : Position) (ps : List Position) :
    ensureAll ctx (p :: ps) = ensure ctx p >>= fun _ => ensureAll ctx ps := rfl

end GridCalc.Evaluation
