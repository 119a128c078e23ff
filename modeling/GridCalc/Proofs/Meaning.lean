import GridCalc.Evaluation.Value
import GridCalc.Proofs.Inquiry

/-!
# The meaning of a table

What the cells of a table ask of each other, and the contents that follow from it. A formula takes
its operands and arguments from left to right and ends with the first that fails; a clone looks at
its source and, if that is a formula, becomes the formula with its references moved along. A
position means a content if its inquiry is answered so by the meanings of the positions it looks
at. No order of evaluation, no limit and no memory enter into this.
-/

set_option autoImplicit false

namespace GridCalc

namespace Content

def operand (p : Position) : Content → Inquiry Float
  | number x => pure x
  | formula _ _ x => pure x
  | empty => pure 0.0
  | text _ => Inquiry.fault .textOperand
  | separator => Inquiry.fault .separatorOperand
  | error f => Inquiry.fault f
  | clone .. => do
    let name ← Inquiry.ofBreakdown p.name
    Inquiry.fault (.unsettled name)

def number? : Content → Option Float
  | number x => some x
  | formula _ _ x => some x
  | _ => none

end Content

namespace Inquiry

def reference (p : Position) : Inquiry Float := look p fun c => c.operand p

def countAsZero (r : Region) (p : Position) (c : Content) : Inquiry Unit :=
  if !c.isEmpty then do
    let _ ← ofBreakdown p.name
    let _ ← ofBreakdown r.name
    pure ()
  else pure ()

def memberValues (r : Region) : List Position → Inquiry (List Float)
  | [] => pure []
  | p :: ps => look p fun c =>
    match c.number? with
    | some x => do
      let xs ← memberValues r ps
      pure (x :: xs)
    | none => do
      countAsZero r p c
      let xs ← memberValues r ps
      pure (0.0 :: xs)

section

variable (g : Grid)

def regionValues (r : Region) : Inquiry (List Float) :=
  if g.contains r.start ∧ g.contains r.finish then memberValues r r.positions
  else do
    let region ← ofBreakdown r.name
    fault (.regionOutside region)

def nodeAt (id : NodeId) : Inquiry Node := ofBreakdown (g.arena.find id)

def checkForms (name : String) : Nat → List ArgumentKind → List NodeId → Inquiry Unit
  | index, kind :: kinds, id :: ids => do
    let n ← nodeAt g id
    if kind = .range ∧ !n.isRegion then fault (.rangeWanted index name)
    else if kind = .scalar ∧ n.isRegion then fault (.rangeUnwanted index name)
    else checkForms name (index + 1) kinds ids
  | _, _, _ => pure ()

def checkArguments (f : Function) (arguments : List NodeId) : Inquiry Unit :=
  let name := Text.upper f.name
  if arguments.length ≠ f.arguments.length then
    fault (.argumentCount name f.arguments.length arguments.length)
  else checkForms g name 1 f.arguments arguments

def findFunction (functions : Functions) (name : String) : Inquiry Function :=
  match functions.find name with
  | .ok f => pure f
  | .error e => fault e

variable (functions : Functions) (shift : Position)

def argumentValues (part : NodeId → Inquiry Float) : List NodeId → Inquiry (List Argument)
  | [] => pure []
  | id :: ids => do
    match ← nodeAt g id with
    | .region r => do
      let xs ← regionValues g (r.shift shift)
      let rest ← argumentValues part ids
      pure (.range xs :: rest)
    | _ => do
      let x ← part id
      let rest ← argumentValues part ids
      pure (.scalar x :: rest)

def nodeValue (part : NodeId → Inquiry Float) : Node → Inquiry Float
  | .number x => pure x
  | .relative p => reference (p.shift shift)
  | .absolute p => reference p
  | .region _ => fault .rangeValue
  | .binary op left right => do
    let x ← part left
    let y ← part right
    done (op.apply x y)
  | .sign op operand => do
    let x ← part operand
    pure (op.applySign x)
  | .call name arguments => do
    let f ← findFunction functions name
    checkArguments g f arguments
    let xs ← argumentValues g shift part arguments
    done (f.rule.apply xs)

def valueWithin : Nat → NodeId → Inquiry Float
  | 0, _ => ofBreakdown (.error .endlessFormula)
  | levels + 1, id => do
    let n ← nodeAt g id
    nodeValue g functions shift (valueWithin levels) n

def formulaValue (root : NodeId) : Inquiry Float :=
  valueWithin g functions shift g.arena.levels root

def settledFormula (root : NodeId) (shift : Position) :
    Except Stop Float → Except Stop Content
  | .ok x => .ok (.formula root shift x)
  | .error (.fault f) => .ok (.error f)
  | .error e => .error e

def formulaContent (root : NodeId) : Inquiry Content :=
  (formulaValue g functions shift root).mapEnd (settledFormula root shift)

end

end Inquiry

def Content.inquiry (g : Grid) (functions : Functions) (p : Position) : Content → Inquiry Content
  | .formula root shift _ => Inquiry.formulaContent g functions shift root
  | .clone d offset => .look (p.move d offset) fun
    | .formula root shift _ =>
      Inquiry.formulaContent g functions (shift.move d.reverse offset) root
    | content => pure content
  | content => pure content

namespace Grid

/-- What the cell at a position asks, as the table is written. -/
def inquiry (g : Grid) (functions : Functions) (p : Position) : Inquiry Content :=
  (g.content p).inquiry g functions p

/-- An inquiry ends with a content if the positions it looks at mean what it sees there. -/
inductive Answers (g : Grid) (functions : Functions) : Inquiry Content → Content → Prop
  | done (c : Content) : Answers g functions (.done (.ok c)) c
  | look {p : Position} {next : Content → Inquiry Content} {c d : Content} :
      Answers g functions (g.inquiry functions p) c → Answers g functions (next c) d →
      Answers g functions (.look p next) d

/-- The content that a position has in the end, if it depends on no loop. -/
def Means (g : Grid) (functions : Functions) (p : Position) (c : Content) : Prop :=
  g.Answers functions (g.inquiry functions p) c

section

variable {g : Grid} {functions : Functions}

theorem answers_unique {q : Inquiry Content} {c d : Content} (hc : g.Answers functions q c)
    (hd : g.Answers functions q d) : c = d := by
  induction hc generalizing d with
  | done => cases hd; rfl
  | look _ _ ihp ihn =>
    cases hd with
    | look hp hn =>
      cases ihp hp
      exact ihn hn

theorem means_unique {p : Position} {c d : Content} (hc : g.Means functions p c)
    (hd : g.Means functions p d) : c = d := answers_unique hc hd

theorem answers_of_leads {k : Knowledge} {q : Inquiry Content} {c : Content}
    (hk : ∀ p d, k p = some d → g.Means functions p d) (h : q.Leads k (.done (.ok c))) :
    g.Answers functions q c := by
  generalize hq : Inquiry.done (.ok c) = q' at h
  induction h with
  | refl => exact hq ▸ .done c
  | look hp _ ih => exact .look (hk _ _ hp) (ih hq)

end

end Grid

end GridCalc
