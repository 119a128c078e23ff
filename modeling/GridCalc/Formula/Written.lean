import GridCalc.Decimal.Layout
import GridCalc.Formula.Node
import GridCalc.Position.Name

/-!
# Written formulas

A formula is written back with single blanks around the operators and with the brackets that the
precedence of the operators needs, and no others. References are written by name, so a formula
that refers past the last named column cannot be written, nor one that comes back to itself. The
parts are written from left to right, and the first that cannot be written decides.
-/

set_option autoImplicit false

namespace GridCalc

/-- Operators that bind tightly; a sign without a meaning counts if it is a piece of `*/`. -/
def Operator.isTight (op : Operator) : Bool := ["*", "/", "*/", ""].contains op.symbol

def Operator.isLoose (op : Operator) : Bool := ["+", "-", "+-", ""].contains op.symbol

def bracketed (needed : Bool) (text : String) : String := if needed then s!"({text})" else text

namespace Arena

def isLoose (a : Arena) (id : NodeId) : Bool :=
  match a.node? id with
  | some (.binary op _ _) => op.isLoose
  | _ => false

def isBinary (a : Arena) (id : NodeId) : Bool := (a.node? id).any (·.isBinary)

/-- The brackets that the operands of an operator need: the left one, the right one. -/
def brackets (a : Arena) (op : Operator) (left right : NodeId) : Bool × Bool :=
  if op.isTight then (a.isLoose left, a.isLoose right)
  else (false, op == .subtract && a.isLoose right)

def writtenNode (a : Arena) (part : NodeId → Except Breakdown String) :
    Node → Except Breakdown String
  | .number x => .ok (Decimal.numeral x)
  | .relative p => p.name
  | .absolute p => p.name.map fun name => s!"${name}"
  | .region r => r.name
  | .binary op left right => do
    let first ← part left
    let second ← part right
    let (onLeft, onRight) := a.brackets op left right
    return bracketed onLeft first ++ " " ++ op.symbol ++ " " ++ bracketed onRight second
  | .sign op operand => do
    let text ← part operand
    return op.symbol ++ bracketed (a.isBinary operand) text
  | .call name arguments => do
    let texts ← arguments.mapM part
    return name ++ "(" ++ ", ".intercalate texts ++ ")"

def writtenWithin (a : Arena) : Nat → NodeId → Except Breakdown String
  | 0, _ => .error .endlessFormula
  | levels + 1, id => do
    let n ← a.find id
    a.writtenNode (a.writtenWithin levels) n

def written (a : Arena) (id : NodeId) : Except Breakdown String := a.writtenWithin a.levels id

end Arena

end GridCalc
