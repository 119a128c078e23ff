import GridCalc.Stop
import GridCalc.Text.Casing
import GridCalc.Text.Letter
import GridCalc.Text.Numeral

/-!
# Names of positions

Columns are named A to Z, AA to ZZ and AAA to ZZZ, rows by their number from one. A position left
of the first column or above the first row has a name of another form, so that it never looks like
a cell of the table. A column past ZZZ has no name, nor has a row whose number is too long.
-/

set_option autoImplicit false

namespace GridCalc
open Text

def columnLetter (n : Nat) : Char := Char.ofNat ('A'.toNat + n)

def columnLetters : Nat → Nat → List Char
  | 0, _ => []
  | _ + 1, 0 => []
  | k + 1, n + 1 => columnLetters k (n / 26) ++ [columnLetter (n % 26)]

def columnCount : Nat := 18278

def columnName (n : Int) : Except Breakdown String :=
  if 1 ≤ n ∧ n ≤ columnCount then .ok (String.ofList (columnLetters 3 n.toNat))
  else .error (.quoting [n] (.columnIndex n))

def letterNumber? (c : Char) : Option Nat :=
  if isColumnLetter c then some (c.toNat - 'A'.toNat + 1) else none

def lettersNumber? (cs : List Char) : Option Nat :=
  (cs.mapM letterNumber?).bind fun ns =>
    if ns = [] then none else some (ns.foldl (fun n d => 26 * n + d) 0)

/-- The number from one of the column with a given name, of at most three characters. Its
letters may be small; where capitals are written with more letters, the last three count. -/
def columnNumber (name : String) : Except Breakdown Nat :=
  let capitals := (upper name).toList
  if 3 < name.length then .error (.columnName name)
  else match lettersNumber? (capitals.drop (capitals.length - 3)) with
    | some n => .ok n
    | none => .error (.columnName name)

namespace Position

def name (p : Position) : Except Breakdown String :=
  if p.row < 0 ∨ p.column < 0 then do
    let row ← integerName (p.row + 1)
    let column ← integerName (p.column + 1)
    return s!"R{row}C{column}"
  else do
    let letters ← columnName (p.column + 1)
    let row ← integerName (p.row + 1)
    return letters ++ row

/-- The position that a name stands for. The row is read from the plain digits at the end; a name
in the right form without them is no number, and one without such a row or column is no name. -/
def ofName? (text : String) : Except Breakdown (Option Position) :=
  let cs := text.toList
  let digits := (cs.reverse.takeWhile isPlainDigit).reverse
  let letters := cs.take (cs.length - digits.length)
  if !isCellName cs then .ok none
  else match natural digits with
    | .error m => .error (.ofMisreading digits m)
    | .ok 0 => .ok none
    | .ok (row + 1) =>
      match columnNumber (String.ofList letters) with
      | .ok column => .ok (some ⟨row, column - 1⟩)
      | .error _ => .ok none

/-- The position that a direction character and a count of steps lead to; without a count it is
one step. -/
def ofRelative (here : Position) (text : String) : Except Breakdown Position :=
  match text.toList with
  | [] => .error .emptyReference
  | c :: count =>
    match Direction.ofChar? c with
    | none => .error (.unknownDirection text)
    | some d =>
      if count = [] then .ok (here.move d 1)
      else match integer count with
        | .ok n => .ok (here.move d n)
        | .error m => .error (.ofMisreading count m)

end Position

def Region.name (r : Region) : Except Breakdown String := do
  let start ← r.start.name
  let finish ← r.finish.name
  return s!"{start}:{finish}"

end GridCalc
