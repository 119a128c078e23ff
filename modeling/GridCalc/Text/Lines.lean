import GridCalc.Text.Blank

/-!
# Lines and fields

A text is cut into lines at line breaks and a line into fields at a separator. A line break ends
a line, so a text that ends with one has no empty line after it; a separator stands between two
fields, so there is always one field more than there are separators.
-/

set_option autoImplicit false

namespace GridCalc.Text

def lineBreaks : List Nat := [10, 11, 12, 13, 28, 29, 30, 133, 8232, 8233]

def isLineBreak (c : Char) : Bool := lineBreaks.contains c.toNat

def consFirst (c : Char) : List (List Char) → List (List Char)
  | [] => [[c]]
  | l :: ls => (c :: l) :: ls

/-- The lines of a text; a carriage return and the line feed after it are one break. -/
def lines : List Char → List (List Char)
  | [] => []
  | '\r' :: '\n' :: cs => [] :: lines cs
  | c :: cs => if isLineBreak c then [] :: lines cs else consFirst c (lines cs)

def fields (sep : Char) : List Char → List (List Char)
  | [] => [[]]
  | c :: cs => if c = sep then [] :: fields sep cs else consFirst c (fields sep cs)

theorem fields_ne_nil (sep : Char) (cs : List Char) : fields sep cs ≠ [] := by
  induction cs with
  | nil => simp [fields]
  | cons c cs ih =>
    rw [fields]
    split
    · simp
    · cases h : fields sep cs with
      | nil => exact absurd h ih
      | cons l ls => simp [consFirst]

def alignRight (width : Nat) (cs : List Char) : List Char :=
  List.replicate (width - cs.length) ' ' ++ cs

theorem length_alignRight (width : Nat) (cs : List Char) :
    (alignRight width cs).length = max width cs.length := by
  simp [alignRight]; omega

end GridCalc.Text
