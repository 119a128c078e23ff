import GridCalc.Decimal.Shortest

/-!
# Number text

How chosen digits are set out: with a decimal point where the exponent lies in the layout's range,
and with a power of ten otherwise. The library writes numbers in four forms, which differ in the
digits they choose and in this layout only.
-/

set_option autoImplicit false

namespace GridCalc.Decimal

structure Layout where
  /-- The least exponent of the first digit that is written without a power of ten. -/
  least : Int
  /-- The first exponent past those. -/
  past : Int
  /-- Whether a whole number keeps a point and a zero. -/
  pointed : Bool

def digitText (ds : List Nat) : List Char := ds.map fun d => Char.ofNat (48 + d)

def zerosText (n : Nat) : List Char := List.replicate n '0'

def powerText (exponent : Int) : List Char :=
  let ds := digitText (digitsOf exponent.natAbs)
  'e' :: (if exponent < 0 then '-' else '+') :: zerosText (2 - ds.length) ++ ds

def scientificText (d : Digits) : List Char :=
  match digitText d.digits with
  | first :: second :: rest => first :: '.' :: second :: rest ++ powerText d.exponent
  | ds => ds ++ powerText d.exponent

def positionalText (pointed : Bool) (d : Digits) : List Char :=
  if d.exponent < 0 then
    '0' :: '.' :: zerosText ((-d.exponent).toNat - 1) ++ digitText d.digits
  else
    let front := d.exponent.toNat + 1
    let back := d.digits.drop front
    digitText (d.digits.take front) ++ zerosText (front - d.digits.length) ++
      (if back ≠ [] then '.' :: digitText back else if pointed then ['.', '0'] else [])

def Layout.text (layout : Layout) (d : Digits) : List Char :=
  if layout.least ≤ d.exponent ∧ d.exponent < layout.past then positionalText layout.pointed d
  else scientificText d

def textWith (layout : Layout) (choose : Nat → Int → Digits) (x : Float) : String :=
  match value x with
  | .undefined => "nan"
  | .infinite negative => if negative then "-inf" else "inf"
  | .finite negative m e =>
    let ds := if m = 0 then ⟨[0], 0⟩ else choose m e
    String.ofList ((if negative then ['-'] else []) ++ layout.text ds)

/-- Exact numbers are positional from 0.0001 up to 10^16 and show that they are not counts. -/
def exactLayout : Layout := ⟨-4, 16, true⟩

def exact (x : Float) : String := textWith exactLayout shortest x

/-- No double has more than 767 significant digits, nor an exponent past 400. -/
def digitLimit : Nat := 1100

def significant (count : Nat) (x : Float) : String :=
  let count := min (max count 1) digitLimit
  textWith ⟨-4, count, false⟩ (rounded · · count) x

def wholeText (n : Int) : String := toString n

/-- The number as it stands in a formula: a whole number has all its digits and no point. -/
def numeral (x : Float) : String :=
  match whole? x with
  | some n => wholeText n
  | none => exact x

/-- The number as it stands in a table: a whole number below 10^16 has no point. -/
def plain (x : Float) : String :=
  match whole? x with
  | some n => if n.natAbs < tenTo 16 then wholeText n else exact x
  | none => exact x

end GridCalc.Decimal
