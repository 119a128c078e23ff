import GridCalc.Evaluation.Progress

/-!
# Values of formulas

The value of a formula, for a given way `ask` to have a cell settled before it is read. Operands
and arguments are taken from left to right, and the first that fails ends the formula. The left
operand of an operation, if it is an operation itself, counts as no level of its own, so a long
sum is no deeper than a short one. A place without a node is noticed when its turn comes, and a
formula that comes back to itself breaks down once it has passed more places than there are.
-/

set_option autoImplicit false

namespace GridCalc

def Operator.apply : Operator → Float → Float → Except Stop Float
  | add, x, y => .ok (x + y)
  | subtract, x, y => .ok (x - y)
  | multiply, x, y => .ok (x * y)
  | divide, x, y => if y == 0.0 then .error (.fault .divisionByZero) else .ok (x / y)
  | other symbol, _, _ => .error (.breakdown (.unknownOperator symbol))

def Operator.applySign (op : Operator) (x : Float) : Float := if op = .subtract then -x else x

namespace Evaluation

def checkForms (name : String) : Nat → List ArgumentKind → List NodeId → Evaluation Unit
  | index, kind :: kinds, id :: ids => do
    let n ← nodeAt id
    if kind = .range ∧ !n.isRegion then Action.fault (.rangeWanted index name)
    else if kind = .scalar ∧ n.isRegion then Action.fault (.rangeUnwanted index name)
    else checkForms name (index + 1) kinds ids
  | _, _, _ => pure ()

def checkArguments (f : Function) (arguments : List NodeId) : Evaluation Unit :=
  let name := Text.upper f.name
  if arguments.length ≠ f.arguments.length then
    Action.fault (.argumentCount name f.arguments.length arguments.length)
  else checkForms name 1 f.arguments arguments

def operand (p : Position) (c : Cell) : Evaluation Float :=
  let unsettled : Evaluation Float := do
    let name ← ofBreakdown p.name
    Action.fault (.unsettled name)
  match c.content with
  | .number x => pure x
  | .formula _ _ x => if c.phase = .done then pure x else unsettled
  | .empty => pure 0.0
  | .text _ => Action.fault .textOperand
  | .separator => Action.fault .separatorOperand
  | .error f => Action.fault f
  | .clone .. => unsettled

section

variable (ask : Position → Evaluation Unit)

def reference (p : Position) : Evaluation Float := do
  ask p
  let c ← cellAt p
  operand p c

/-- The numbers of cells of a region; a cell without a number counts as zero. -/
def memberValues (r : Region) : List Position → Evaluation (List Float)
  | [] => pure []
  | p :: ps => do
    ask p
    let c ← cellAt p
    match c.number? with
    | some x => do
      let xs ← memberValues r ps
      pure (x :: xs)
    | none => do
      if !c.content.isEmpty then
        let name ← ofBreakdown p.name
        let region ← ofBreakdown r.name
        note (.countsAsZero name c.content.label region)
      let xs ← memberValues r ps
      pure (0.0 :: xs)

def regionValues (r : Region) : Evaluation (List Float) := do
  if ← containsRegion r then memberValues ask r r.positions
  else do
    let region ← ofBreakdown r.name
    Action.fault (.regionOutside region)

variable (functions : Functions) (shift : Position)

def argumentValues (part : NodeId → Evaluation Float) :
    List NodeId → Evaluation (List Argument)
  | [] => pure []
  | id :: ids => do
    match ← nodeAt id with
    | .region r => do
      let xs ← regionValues ask (r.shift shift)
      let rest ← argumentValues part ids
      pure (.range xs :: rest)
    | _ => do
      let x ← part id
      let rest ← argumentValues part ids
      pure (.scalar x :: rest)

/-- The value of a node whose relative references are moved by `shift`, for a given way to take
the value of the parts it refers to. `chained` tells that the node is the left operand of an
operation. -/
def nodeValue (part : Bool → NodeId → Evaluation Float) (chained : Bool) :
    Node → Evaluation Float
  | .number x => nested (pure x)
  | .relative p => nested (reference ask (p.shift shift))
  | .absolute p => nested (reference ask p)
  | .region _ => nested (Action.fault .rangeValue)
  | .binary op left right =>
    let steps : Evaluation Float := do
      let x ← part true left
      let y ← part false right
      Action.ofExcept (op.apply x y)
    if chained then steps else nested steps
  | .sign op operand => nested do
    let x ← part false operand
    pure (op.applySign x)
  | .call name arguments => nested do
    let f ← ofFault (functions.find name)
    checkArguments f arguments
    let xs ← argumentValues ask shift (part false) arguments
    Action.ofExcept (f.rule.apply xs)

def valueWithin : Nat → Bool → NodeId → Evaluation Float
  | 0, _, _ => Action.breakdown .endlessFormula
  | levels + 1, chained, id => do
    let n ← nodeAt id
    nodeValue ask functions shift (valueWithin levels) chained n

def rootValue (root : NodeId) : Evaluation Float := fun s =>
  valueWithin ask functions shift s.grid.arena.levels false root s

end

end Evaluation

end GridCalc
