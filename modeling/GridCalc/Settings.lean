import GridCalc.Decimal.Layout
import GridCalc.Stop

/-!
# Settings

How many evaluations may be nested before a chain of references is taken up again from its far
end, and how numbers are shown: with the given number of significant digits, or exactly.
-/

set_option autoImplicit false

namespace GridCalc

structure Settings where
  limit : Nat := 100
  precision : Option Nat := none
  deriving DecidableEq, Repr

namespace Settings

def setLimit (s : Settings) (n : Int) : Except Breakdown Settings :=
  if n < 1 then .error (.quoting [n] (.limitNotPositive n)) else .ok { s with limit := n.toNat }

def setPrecision (s : Settings) : Option Int → Except Breakdown Settings
  | none => .ok { s with precision := none }
  | some n =>
    if n < 1 then .error (.quoting [n] (.precisionNotPositive n))
    else .ok { s with precision := some n.toNat }

/-- The largest precision that numbers can be shown with. -/
def largestPrecision : Nat := 2147483647

/-- The largest precision that can be asked for. -/
def longestPrecision : Nat := 9223372036854775807

def numberText (s : Settings) (x : Float) : Except Breakdown String :=
  match s.precision with
  | none => .ok (Decimal.plain x)
  | some count =>
    if !Text.fits count then .error .digitsWritten
    else if longestPrecision < count then .error .precisionTooLong
    else if largestPrecision < count then .error .precisionTooBig
    else .ok (Decimal.significant count x)

end Settings

end GridCalc
