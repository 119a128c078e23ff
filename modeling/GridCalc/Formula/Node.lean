import GridCalc.Stop

/-!
# Formulas

The nodes of all formulas of a table are kept in one arena, to which nodes are only ever added. A
node refers to others by their place in the arena, so a formula is a place from which others are
reached. Nothing makes sure that there is a node at a place, or that a node is not reached from
itself: whoever follows the places meets such a breakdown when it comes to it, and not before.
-/

set_option autoImplicit false

namespace GridCalc

inductive Operator where
  | add
  | subtract
  | multiply
  | divide
  /-- A sign without a meaning in this library. -/
  | other (symbol : String)
  deriving DecidableEq, Repr

namespace Operator

def symbol : Operator → String
  | add => "+"
  | subtract => "-"
  | multiply => "*"
  | divide => "/"
  | other s => s

def ofSymbol : String → Operator
  | "+" => add
  | "-" => subtract
  | "*" => multiply
  | "/" => divide
  | s => other s

end Operator

abbrev NodeId := Nat

inductive Node where
  | number (x : Float)
  /-- A position that moves with the cell that holds the formula. -/
  | relative (p : Position)
  | absolute (p : Position)
  | region (r : Region)
  | binary (op : Operator) (left right : NodeId)
  | sign (op : Operator) (operand : NodeId)
  | call (name : String) (arguments : List NodeId)
  deriving DecidableEq, Repr

namespace Node

def isRegion : Node → Bool
  | region _ => true
  | _ => false

def isBinary : Node → Bool
  | binary .. => true
  | _ => false

end Node

structure Arena where
  nodes : Array Node
  deriving DecidableEq

namespace Arena

def empty : Arena := ⟨#[]⟩

def size (a : Arena) : Nat := a.nodes.size

def node? (a : Arena) (id : NodeId) : Option Node := a.nodes[id]?

def find (a : Arena) (id : NodeId) : Except Breakdown Node :=
  match a.node? id with
  | some n => .ok n
  | none => .error (.unknownNode id)

/-- How many places a way through the arena can pass before it comes back to one of them: those
of all nodes, and at its end one without a node. -/
def levels (a : Arena) : Nat := a.size + 1

def add (a : Arena) (n : Node) : Arena := ⟨a.nodes.push n⟩

theorem size_add (a : Arena) (n : Node) : (a.add n).size = a.size + 1 := by
  simp [size, add]

theorem node?_add_size (a : Arena) (n : Node) : (a.add n).node? a.size = some n := by
  simp [node?, size, add]

theorem node?_add_of_lt {a : Arena} {id : NodeId} (n : Node) (h : id < a.size) :
    (a.add n).node? id = a.node? id := by
  simp only [node?, size, add] at *
  simp [Array.getElem?_push, Nat.ne_of_lt h]

end Arena

end GridCalc
