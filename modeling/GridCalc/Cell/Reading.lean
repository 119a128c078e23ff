import GridCalc.Cell
import GridCalc.Formula.Parse

/-!
# Reading cells

How the text of a cell is understood: a formula after an equals sign, a clone after a colon, a run
of low lines as a separator, a decimal number, and anything else as text. A malformed formula or
clone becomes a cell that holds the fault, so that no cell keeps the others from being read.
-/

set_option autoImplicit false

namespace GridCalc.Cell
open GridCalc GridCalc.Text

def isPowerText : List Char → Bool
  | [] => true
  | c :: cs =>
    let digits := (takeSign cs).2
    (c == 'e' || c == 'E') && !digits.isEmpty && digits.all isDecimal

/-- An optional sign, decimal digits with at most one point among them, and a power of ten. -/
def isNumberText (cs : List Char) : Bool :=
  let cs := (takeSign cs).2
  let whole := cs.takeWhile isDecimal
  match cs.dropWhile isDecimal with
  | '.' :: rest =>
    !(whole.isEmpty && (rest.takeWhile isDecimal).isEmpty) &&
      isPowerText (rest.dropWhile isDecimal)
  | rest => !whole.isEmpty && isPowerText rest

def isSeparatorText (cs : List Char) : Bool := decide (2 ≤ cs.length) && cs.all (· == '_')

def cloneOf (text : String) : Except Stop (Direction × Int) :=
  match text.toList with
  | [] => .error (.fault .missingDirection)
  | c :: cs =>
    match Direction.ofChar? c with
    | none => .error (.fault (.malformedDirection text))
    | some d =>
      let count := trim cs
      if count = [] then .ok (d, 1)
      else if !count.all isDigit then .error (.fault (.malformedOffset (String.ofList count)))
      else match natural count with
        | .error m => .error (.breakdown (.ofMisreading count m))
        | .ok 0 => .error (.fault .selfClone)
        | .ok n => .ok (d, n)

/-- A cell that holds the fault in place of a computation that stops with one. -/
def orFault (x : Action Arena Cell) : Action Arena Cell := fun a =>
  match x a with
  | (.error (.fault f), b) => (.ok (ofFault f), b)
  | result => result

def ofPlainText (s : String) : Cell :=
  if isSeparatorText s.toList then ⟨.separator, .pending⟩
  else if isNumberText s.toList then
    match Decimal.read? s with
    | some x => ⟨.number x, .pending⟩
    | none => ⟨.text s, .pending⟩
  else ⟨.text s, .pending⟩

def ofText (p : Position) (s : String) : Action Arena Cell :=
  match s.toList with
  | [] => pure empty
  | '=' :: formula => orFault do
    let root ← Formula.parse (String.ofList formula) p
    pure ⟨.formula root .origin 0.0, .pending⟩
  | ':' :: source => orFault do
    let (d, offset) ← Action.ofExcept (cloneOf (String.ofList source))
    pure ⟨.clone d offset, .pending⟩
  | _ => pure (ofPlainText s)

end GridCalc.Cell
