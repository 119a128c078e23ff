/-!
# The value of a binary number

A double-precision number is a signed whole number times a power of two, an infinity or no number
at all. The way back takes a quotient of whole numbers to the double nearest to it: a value
halfway between two doubles goes to the one with the even significand, and a value past the
largest double becomes infinite.
-/

set_option autoImplicit false

namespace GridCalc.Decimal

def twoTo (k : Nat) : Nat := Nat.pow 2 k

def tenTo (k : Nat) : Nat := Nat.pow 10 k

inductive Value where
  | undefined
  | infinite (negative : Bool)
  /-- The number `significand * 2 ^ exponent`, negated if `negative`. -/
  | finite (negative : Bool) (significand : Nat) (exponent : Int)
  deriving DecidableEq, Repr

def valueOfBits (bits : Nat) : Value :=
  let negative := bits / twoTo 63 % 2 == 1
  let scale : Nat := bits / twoTo 52 % twoTo 11
  let fraction : Nat := bits % twoTo 52
  if scale = 2047 then
    if fraction = 0 then .infinite negative else .undefined
  else if scale = 0 then .finite negative fraction (-1074)
  else .finite negative (twoTo 52 + fraction) ((scale : Int) - 1075)

def value (x : Float) : Value := valueOfBits x.toBits.toNat

/-- The quotient rounded to the nearest whole number, a half to the even neighbour. -/
def roundDiv (num den : Nat) : Nat :=
  let q := num / den
  let r := num % den
  if den < 2 * r ∨ (2 * r = den ∧ q % 2 = 1) then q + 1 else q

def lastPlace (num den : Nat) : Int :=
  let guess : Int := (num.log2 : Int) - (den.log2 : Int) - 53
  let reached :=
    if 0 ≤ guess then decide (twoTo 53 * den * twoTo guess.toNat ≤ num)
    else decide (twoTo 53 * den ≤ num * twoTo (-guess).toNat)
  max (-1074) (if reached then guess + 1 else guess)

def nearestBits (num den : Nat) : Nat :=
  let place := lastPlace num den
  let significand :=
    if 0 ≤ place then roundDiv num (den * twoTo place.toNat)
    else roundDiv (num * twoTo (-place).toNat) den
  min ((place + 1074).toNat * twoTo 52 + significand) (2047 * twoTo 52)

/-- The double nearest to `num / den`, negated if `negative`. -/
def nearest (negative : Bool) (num den : Nat) : Float :=
  let bits := if num = 0 then 0 else nearestBits num den
  Float.ofBits (UInt64.ofNat (if negative then twoTo 63 + bits else bits))

def whole? (x : Float) : Option Int :=
  match value x with
  | .finite negative m e =>
    let signed (n : Nat) : Int := if negative then -(n : Int) else n
    if 0 ≤ e then some (signed (m * twoTo e.toNat))
    else if m % twoTo (-e).toNat = 0 then some (signed (m / twoTo (-e).toNat))
    else none
  | _ => none

end GridCalc.Decimal
