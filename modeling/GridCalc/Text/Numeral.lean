import GridCalc.Text.Blank
import GridCalc.Text.Digit

/-!
# Whole numbers in text

A whole number is read from decimal digits of any script, with single low lines between them, an
optional sign in front and blanks around. The information separators are blanks, but none that a
number may have around it. With too many digits no whole number is read or written.
-/

set_option autoImplicit false

namespace GridCalc.Text

def isMargin (c : Char) : Bool := isBlank c && !(decide (28 ≤ c.toNat) && decide (c.toNat ≤ 31))

def trimMargins (cs : List Char) : List Char :=
  (((cs.dropWhile isMargin).reverse).dropWhile isMargin).reverse

def digitValues? : List Char → Option (List Nat)
  | [] => none
  | [c] => (digitValue? c).map ([·])
  | c :: '_' :: cs =>
    match digitValue? c, digitValues? cs with
    | some d, some ds => some (d :: ds)
    | _, _ => none
  | c :: cs =>
    match digitValue? c, digitValues? cs with
    | some d, some ds => some (d :: ds)
    | _, _ => none

def takeSign : List Char → Bool × List Char
  | '-' :: cs => (true, cs)
  | '+' :: cs => (false, cs)
  | cs => (false, cs)

/-- The most digits that a whole number may have where it is read or written. -/
def digitBound : Nat := 4300

def fits (n : Int) : Bool := decide ((Nat.toDigits 10 n.natAbs).length ≤ digitBound)

theorem fits_of_natAbs_le {m n : Int} (h : m.natAbs ≤ n.natAbs) (hn : fits n) : fits m := by
  rw [fits, decide_eq_true_iff, Nat.length_toDigits_le_iff (by decide) (by decide)] at *
  exact Nat.lt_of_le_of_lt h hn

theorem fits_of_between {m n k : Int} (hm : fits m) (hn : fits n)
    (h : m ≤ k ∧ k ≤ n ∨ n ≤ k ∧ k ≤ m) : fits k := by
  have hk : k.natAbs ≤ m.natAbs ∨ k.natAbs ≤ n.natAbs := by omega
  exact hk.elim (fits_of_natAbs_le · hm) (fits_of_natAbs_le · hn)

inductive Misreading where
  | malformed
  | tooLong (digits : Nat)
  deriving DecidableEq, Repr

/-- Digits are counted up to the first character of another kind, and too many of them are noticed
before that character is. -/
def natural (cs : List Char) : Except Misreading Nat :=
  let front := (digitValues? (cs.takeWhile fun c => isDecimal c || c == '_')).getD []
  if digitBound < front.length then .error (.tooLong front.length)
  else match digitValues? cs with
    | some ds => .ok (ofDigits ds)
    | none => .error .malformed

def integer (cs : List Char) : Except Misreading Int :=
  let (negative, digits) := takeSign (trimMargins cs)
  (natural digits).map fun n : Nat => if negative then -(n : Int) else n

end GridCalc.Text
