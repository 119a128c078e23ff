import GridCalc.Fault
import GridCalc.Text.Blank
import GridCalc.Text.Letter

/-!
# Scanning

A formula is cut into tokens from left to right. At each character that is no blank, the rule for
that character says how many of the characters after it belong to the same token, so the tokens
are slices of the formula and what lies between them is blank.
-/

set_option autoImplicit false

namespace GridCalc
open Text

def isSign (c : Char) : Bool := c == '+' || c == '-'

def startsWith (p : Char → Bool) : List Char → Bool
  | [] => false
  | c :: _ => p c

/-- The number of characters of a number that starts here. `point`, `power` and `digits` tell
whether a decimal point, a power of ten and a digit have gone before. -/
def numberLength (point power digits : Bool) : List Char → Except (Nat → Fault) Nat
  | [] => .ok 0
  | c :: cs =>
    if isDigit c then (numberLength point power true cs).map (· + 1)
    else if c = '.' then
      if point then .error (.malformedNumber .manyPoints)
      else if power then .ok 0
      else (numberLength true power digits cs).map (· + 1)
    else if (c = 'e' ∨ c = 'E') ∧ !power ∧ digits then
      match cs with
      | [] => .error .missingPower
      | d :: ds =>
        if isSign d then
          if startsWith isDigit ds then (numberLength point true digits ds).map (· + 2)
          else .error .missingPower
        else if isDigit d then (numberLength point true digits (d :: ds)).map (· + 1)
        else .error .missingPower
    else .ok 0

def numberExtent (place : Nat) (cs : List Char) : Except Fault Nat :=
  match numberLength false false false cs with
  | .error fault => .error (fault place)
  | .ok n =>
    if cs.take n = ['.'] then .error (.malformedNumber .lonePoint place)
    else if (cs.take n).getLast? = some '.' then .error (.malformedNumber .lastPoint place)
    else .ok n

def isWordPart (c : Char) : Bool := isWordChar c || c == '_'

/-- What a word is, given what follows it. A small `v` with or without a count points down, and
a word before an opening bracket is a name, even if it looks like a cell. -/
def wordKind (place : Nat) (word rest : List Char) : Except Fault TokenKind :=
  if startsWith (· == 'v') word && (word.drop 1).all isDigit then .ok .relative
  else if startsWith (· == '(') (trimStart rest) then .ok .name
  else if isCellName word then .ok .cell
  else if startsWith isCapital word && word.any isDigit then
    .error (.malformedCellName (String.ofList word) place)
  else .ok .name

def symbolKind? : Char → Option TokenKind
  | '+' | '-' | '*' | '/' => some .operator
  | '$' => some .dollar
  | '(' => some .openParen
  | ')' => some .closeParen
  | ',' => some .comma
  | ':' => some .colon
  | _ => none

def pointsAway (c : Char) : Bool := c == '^' || c == '>' || c == '<'

/-- The kind of the token that starts with `c`, and how many of the characters after `c` it has. -/
def lexeme (place : Nat) (c : Char) (cs : List Char) : Except Fault (TokenKind × Nat) :=
  if isDigit c || c == '.' then
    (numberExtent place (c :: cs)).map fun n => (.number, n - 1)
  else if pointsAway c then .ok (.relative, (cs.takeWhile isDigit).length)
  else if isLetter c || c == '_' then
    let word := cs.takeWhile isWordPart
    (wordKind place (c :: word) (cs.drop word.length)).map fun kind => (kind, word.length)
  else match symbolKind? c with
    | some kind => .ok (kind, 0)
    | none => .error (.unexpectedCharacter c place)

def scanFrom (place : Nat) : List Char → Except Fault (List Token)
  | [] => .ok []
  | c :: cs =>
    if isBlank c then scanFrom (place + 1) cs
    else match lexeme place c cs with
      | .error fault => .error fault
      | .ok (kind, n) =>
        (scanFrom (place + 1 + n) (cs.drop n)).map
          (⟨kind, String.ofList (c :: cs.take n), place⟩ :: ·)
termination_by cs => cs.length
decreasing_by
  · simp only [List.length_cons]; omega
  · simp only [List.length_drop, List.length_cons]; omega

def scan (formula : String) : Except Fault (List Token) := scanFrom 0 (trim formula.toList)

end GridCalc
