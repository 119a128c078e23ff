import GridCalc.Formula.Node
import GridCalc.Settings

/-!
# Cells

What stands at one position of a table, and how far its evaluation has got. The value of a formula
is kept with it. A fault is final from the start; all other contents wait to be asked for.
-/

set_option autoImplicit false

namespace GridCalc

inductive Phase where
  | pending
  | active
  | done
  deriving DecidableEq, Repr

inductive Content where
  | text (s : String)
  | number (x : Float)
  /-- A formula whose relative references are moved by `shift`, and its value once it is done. -/
  | formula (root : NodeId) (shift : Position) (value : Float)
  /-- Stands for the cell `offset` steps away, as if that had been written here. -/
  | clone (direction : Direction) (offset : Int)
  | separator
  | error (fault : Fault)
  | empty
  deriving DecidableEq, Repr

namespace Content

def label : Content → String
  | text _ => "TEXT"
  | number _ => "NUMBER"
  | formula .. => "EXPRESSION"
  | clone .. => "CLONE"
  | separator => "SEPARATOR"
  | error _ => "ERROR"
  | empty => "EMPTY"

def isDeferred : Content → Bool
  | formula .. | clone .. => true
  | _ => false

def isEmpty : Content → Bool
  | empty => true
  | _ => false

def isSeparator : Content → Bool
  | separator => true
  | _ => false

end Content

structure Cell where
  content : Content
  phase : Phase := .pending
  deriving DecidableEq, Repr

inductive CellValue where
  | none
  | text (s : String)
  | number (x : Float)
  deriving Repr

namespace Cell

def empty : Cell := ⟨.empty, .pending⟩

def ofFault (f : Fault) : Cell := ⟨.error f, .done⟩

/-- The cell as it looks from `offset` steps away in the direction that leads to it: a formula
keeps its references in place as seen from there, and has to be worked out again. -/
def cloned (c : Cell) (d : Direction) (offset : Int) : Cell :=
  match c.content with
  | .formula root shift _ => ⟨.formula root (shift.move d.reverse offset) 0.0, .pending⟩
  | _ => c

theorem cloned_cases (c : Cell) (d : Direction) (offset : Int) :
    (∃ root shift x, c.content = .formula root shift x ∧
      c.cloned d offset = ⟨.formula root (shift.move d.reverse offset) 0.0, .pending⟩) ∨
    (∀ root shift x, c.content ≠ .formula root shift x) ∧ c.cloned d offset = c := by
  unfold cloned
  split
  · next root shift x hc => exact .inl ⟨root, shift, x, hc, rfl⟩
  · next hne => exact .inr ⟨hne, rfl⟩

def unsettledText : String := "#ERROR#"

def faultText (f : Fault) : String := "#" ++ f.message ++ "#"

def text (settings : Settings) (c : Cell) : Except Breakdown String :=
  match c.content with
  | .text s => .ok s
  | .number x => settings.numberText x
  | .formula _ _ x => if c.phase = .done then settings.numberText x else .ok unsettledText
  | .clone .. => .ok unsettledText
  | .error f => .ok (faultText f)
  | .separator | .empty => .ok ""

def value (c : Cell) : CellValue :=
  match c.content with
  | .text s => .text s
  | .number x => .number x
  | .formula _ _ x => if c.phase = .done then .number x else .text unsettledText
  | .error f => .text (faultText f)
  | .clone .. | .separator | .empty => .none

/-- The number that a cell adds to a range, if it has one. -/
def number? (c : Cell) : Option Float :=
  match c.content with
  | .number x => some x
  | .formula _ _ x => if c.phase = .done then some x else none
  | _ => none

end Cell

end GridCalc
