import GridCalc.Decimal.Binary
import GridCalc.Text.Numeral

/-!
# Reading decimal numbers

A decimal number is a sign, digits with a point among them and a power of ten, or a word for an
infinity or for no number. It is read as the double nearest to it.
-/

set_option autoImplicit false

namespace GridCalc.Decimal
open GridCalc.Text

/-- The number `n * 10 ^ exponent`. Past ten to the 400th in either direction its exact value does
not matter. -/
def ofScaled (negative : Bool) (n : Nat) (exponent : Int) : Float :=
  let top := exponent + (Nat.toDigits 10 n).length
  if n = 0 ∨ top < -400 then nearest negative 0 1
  else if 400 < top then nearest negative (twoTo 1024) 1
  else if 0 ≤ exponent then nearest negative (n * tenTo exponent.toNat) 1
  else nearest negative n (tenTo (-exponent).toNat)

def power? : List Char → Option Int
  | [] => some 0
  | c :: cs =>
    if c = 'e' ∨ c = 'E' then
      let (negative, digits) := takeSign cs
      (digitValues? digits).map fun ds => if negative then -(ofDigits ds : Int) else ofDigits ds
    else none

def isPowerMark (c : Char) : Bool := c == 'e' || c == 'E'

def side? (cs : List Char) : Option (List Nat) := if cs = [] then some [] else digitValues? cs

def unsigned? (negative : Bool) (cs : List Char) : Option Float :=
  let front := cs.takeWhile fun c => c != '.' && !isPowerMark c
  let rest := cs.drop front.length
  let (back, power) := match rest with
    | '.' :: rest =>
      (rest.takeWhile fun c => !isPowerMark c, rest.dropWhile fun c => !isPowerMark c)
    | rest => ([], rest)
  match side? front, side? back, power? power with
  | some ds, some fs, some k =>
    if ds = [] ∧ fs = [] then none
    else some (ofScaled negative (ofDigits (ds ++ fs)) (k - fs.length))
  | _, _, _ => none

def word? (negative : Bool) (word : String) : Option Float :=
  if word = "inf" ∨ word = "infinity" then some (nearest negative (twoTo 1024) 1)
  else if word = "nan" then some (0.0 / 0.0)
  else none

def lowerAscii (cs : List Char) : String := String.ofList (cs.map Char.toLower)

def read? (s : String) : Option Float :=
  let (negative, cs) := takeSign (trimMargins s.toList)
  match word? negative (lowerAscii cs) with
  | some x => some x
  | none => unsigned? negative cs

end GridCalc.Decimal
