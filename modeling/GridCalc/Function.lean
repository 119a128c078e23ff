import GridCalc.Function.Likeness
import GridCalc.Stop
import GridCalc.Text.Casing

/-!
# Functions

The functions that formulas call. A function has a name in small letters, a list of the kinds of
its arguments and a rule. A range is passed as the list of the numbers of its cells.
-/

set_option autoImplicit false

namespace GridCalc

inductive ArgumentKind where
  | scalar
  | range
  deriving DecidableEq, Repr

inductive Argument where
  | scalar (x : Float)
  | range (xs : List Float)
  deriving Repr

inductive Rule where
  | sum
  | average
  | minimum
  | maximum
  | median
  | root
  | logarithm
  | magnitude
  /-- The sum of all numbers passed, in whatever arguments. -/
  | total
  deriving DecidableEq, Repr

def sumOf (xs : List Float) : Float := xs.foldl (· + ·) 0.0

/-- The least number; of equal ones, and beside a number that compares with none, the first. -/
def leastOf? : List Float → Option Float
  | [] => none
  | x :: xs => some (xs.foldl (fun least y => if y < least then y else least) x)

def greatestOf? : List Float → Option Float
  | [] => none
  | x :: xs => some (xs.foldl (fun greatest y => if greatest < y then y else greatest) x)

def undefined : Float := 0.0 / 0.0

def middleOf (sorted : List Float) : List Float :=
  let before := (sorted.length - 1) / 2
  (sorted.drop before).take (sorted.length - 2 * before)

def meanOf (xs : List Float) : Float := sumOf xs / Float.ofNat xs.length

def medianOf (xs : List Float) : Float :=
  if xs = [] ∨ xs.any Float.isNaN then undefined
  else meanOf (middleOf (xs.mergeSort fun x y => decide (x ≤ y)))

namespace Argument

def members : Argument → Except Stop (List Float)
  | scalar _ => .error (.breakdown .numberAsList)
  | range xs => .ok xs

def number (ifRange : Breakdown) : Argument → Except Stop Float
  | scalar x => .ok x
  | range _ => .error (.breakdown ifRange)

def numbers : Argument → List Float
  | scalar x => [x]
  | range xs => xs

end Argument

namespace Rule

def title : Rule → String
  | sum => "SUM"
  | average => "AVG"
  | minimum => "MIN"
  | maximum => "MAX"
  | median => "MEDIAN"
  | root => "SQRT"
  | logarithm => "LOG10"
  | magnitude => "ABS"
  | total => "TOTAL"

def parameter : Rule → String
  | root | logarithm | magnitude => "x"
  | _ => "values"

def applyOne (argument : Argument) : Rule → Except Stop Float
  | sum => do
    let xs ← argument.members
    return sumOf xs
  | average => do
    let xs ← argument.members
    if xs = [] then .error (.breakdown .emptyAverage) else return meanOf xs
  | minimum => do
    match leastOf? (← argument.members) with
    | some x => return x
    | none => .error (.breakdown .emptyMinimum)
  | maximum => do
    match greatestOf? (← argument.members) with
    | some x => return x
    | none => .error (.breakdown .emptyMaximum)
  | median => .ok (medianOf argument.numbers)
  | root => do
    let x ← argument.number (.listCompared "<")
    if x < 0.0 then .error (.fault .negativeRoot) else return x.sqrt
  | logarithm => do
    let x ← argument.number (.listCompared "<=")
    if x ≤ 0.0 then .error (.fault .nonpositiveLogarithm) else return x.log10
  | magnitude => do
    let x ← argument.number .listMagnitude
    return x.abs
  | total => .ok (sumOf argument.numbers)

/-- The value of a rule, which takes one argument unless it is the total of any number of them. -/
def apply : Rule → List Argument → Except Stop Float
  | total, arguments => .ok (sumOf (arguments.flatMap (·.numbers)))
  | rule, [argument] => rule.applyOne argument
  | rule, arguments =>
    .error (.breakdown (.argumentsGiven rule.title rule.parameter arguments.length))

end Rule

structure Function where
  name : String
  arguments : List ArgumentKind
  rule : Rule
  deriving DecidableEq, Repr

abbrev Functions := List Function

namespace Functions

def builtin : Functions :=
  [⟨"sum", [.range], .sum⟩, ⟨"avg", [.range], .average⟩, ⟨"min", [.range], .minimum⟩,
   ⟨"max", [.range], .maximum⟩, ⟨"median", [.range], .median⟩, ⟨"sqrt", [.scalar], .root⟩,
   ⟨"log10", [.scalar], .logarithm⟩, ⟨"abs", [.scalar], .magnitude⟩]

/-- The function of the given name in any case; for an unknown name the fault names one that is
close to it. -/
def find (fs : Functions) (name : String) : Except Fault Function :=
  let small := Text.lower name
  match fs.find? (·.name = small) with
  | some f => .ok f
  | none => .error (.unknownFunction name (nearestWord? small (fs.map (·.name))))

/-- Adds a function under its name in small letters, in the place of an older one. One without a
name is not added, so nothing is ever found under the empty name. -/
def register (fs : Functions) (f : Function) : Functions :=
  let f := { f with name := Text.lower f.name }
  if f.name = "" then fs
  else if fs.any (·.name = f.name) then fs.map fun g => if g.name = f.name then f else g
  else fs ++ [f]

end Functions

end GridCalc
