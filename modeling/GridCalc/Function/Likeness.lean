/-!
# Likeness of words

Two words are as alike as their longest common subsequence is long, measured against both words
together: alike in all letters is 100 percent, in none is 0.
-/

set_option autoImplicit false

namespace GridCalc

/-- One row of the table of common lengths: for each prefix of `ys`, the length of the longest
common subsequence with the letters up to `x`. `above` is the row before, `diagonal` and `left`
are the entries before the current one in the two rows. -/
def commonRow (x : Char) : List Char → List Nat → Nat → Nat → List Nat
  | y :: ys, n :: above, diagonal, left =>
    let here := if x = y then diagonal + 1 else max n left
    here :: commonRow x ys above n here
  | _, _, _, _ => []

def commonTable (ys : List Char) : List Char → List Nat → List Nat
  | [], row => row
  | x :: xs, row => commonTable ys xs (commonRow x ys row 0 0)

def commonLength (xs ys : List Char) : Nat :=
  (commonTable ys xs (List.replicate ys.length 0)).getLast?.getD 0

structure Likeness where
  common : Nat
  total : Nat
  deriving DecidableEq, Repr

namespace Likeness

def between (a b : String) : Likeness :=
  ⟨2 * commonLength a.toList b.toList, a.length + b.length⟩

def above (a b : Likeness) : Bool := b.common * a.total < a.common * b.total

def close (a : Likeness) : Bool := 60 * a.total ≤ 100 * a.common && a.common != 0

end Likeness

def nearestWord? (word : String) (words : List String) : Option String :=
  let best := words.foldl (fun (best : Option (String × Likeness)) other =>
    let likeness := Likeness.between word other
    match best with
    | none => some (other, likeness)
    | some (_, top) => if likeness.above top then some (other, likeness) else best) none
  match best with
  | some (other, likeness) => if likeness.close then some other else none
  | none => none

end GridCalc
