import GridCalc.Decimal.Binary

/-!
# Decimal digits of a number

Two ways to choose the digits of a positive number `m * 2 ^ e`. The shortest choice is the least
number of digits that still reads back as the same double, and of those the nearest; all numbers
between the halfway points to the neighbouring doubles read back, the halfway points themselves
only if `m` is even. The rounded choice is a given number of digits, exact to half a unit of the
last place. All comparisons are between whole numbers.
-/

set_option autoImplicit false

namespace GridCalc.Decimal

/-- The number `d₀.d₁d₂… * 10 ^ exponent`; the first digit is zero for the number zero only. -/
structure Digits where
  digits : List Nat
  exponent : Int
  deriving DecidableEq, Repr

def digitsOf (n : Nat) : List Nat := (Nat.toDigits 10 n).map (fun c => c.toNat - 48)

def dropLastZeros (ds : List Nat) : List Nat :=
  match (ds.reverse.dropWhile (· == 0)).reverse with
  | [] => [0]
  | ds => ds

def Digits.ofScaled (n : Nat) (place : Int) : Digits :=
  let ds := digitsOf n
  if n = 0 then ⟨[0], 0⟩ else ⟨dropLastZeros ds, place + (ds.length - 1 : Nat)⟩

def scales (place e : Int) : Nat × Nat :=
  (tenTo place.toNat * twoTo (-e).toNat, twoTo e.toNat * tenTo (-place).toNat)

/-- The exponent of the first decimal digit of `num / den`, for a positive quotient. Below one it
is the power of ten that first lifts the quotient to one. -/
def leadingPlace (num den : Nat) : Int :=
  if den ≤ num then ((digitsOf (num / den)).length : Int) - 1
  else -((digitsOf ((den - 1) / num)).length : Int)

def decimalExponent (m : Nat) (e : Int) : Int := leadingPlace (m * twoTo e.toNat) (twoTo (-e).toNat)

/-- The range that reads back as `m * 2 ^ e`, in quarters of the last binary place. -/
structure Basin where
  low : Nat
  mid : Nat
  high : Nat
  closed : Bool

def basin (m : Nat) (e : Int) : Basin :=
  { low := if m = twoTo 52 ∧ -1074 < e then 4 * m - 1 else 4 * m - 2
    mid := 4 * m
    high := 4 * m + 2
    closed := m % 2 == 0 }

def Basin.has (r : Basin) (a b n : Nat) : Bool :=
  if r.closed then decide (r.low * b ≤ n * a) && decide (n * a ≤ r.high * b)
  else decide (r.low * b < n * a) && decide (n * a < r.high * b)

def nearestOnGrid? (m : Nat) (e place : Int) : Option Nat :=
  let (a, b) := scales place (e - 2)
  let r := basin m e
  let n := r.mid * b / a
  match r.has a b n, r.has a b (n + 1) with
  | true, true => some (roundDiv (r.mid * b) a)
  | true, false => some n
  | false, true => some (n + 1)
  | false, false => none

/-- The fewest digits that read back as `m * 2 ^ e`; seventeen are always enough. -/
def shortest (m : Nat) (e : Int) : Digits :=
  let top := decimalExponent m e
  let found := (List.range 17).findSome? fun (k : Nat) =>
    (nearestOnGrid? m e (top - k)).map (Digits.ofScaled · (top - k))
  found.getD ⟨[0], 0⟩

def rounded (m : Nat) (e : Int) (count : Nat) : Digits :=
  let place := decimalExponent m e - ((count : Int) - 1)
  let (a, b) := scales place e
  Digits.ofScaled (roundDiv (m * b) a) place

end GridCalc.Decimal
