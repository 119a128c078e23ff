import GridCalc.Formula.Token

/-!
# Faults of a table

What can be wrong with a cell, with its text or with the values it depends on. A fault settles the
cell in which it arises: the cell shows it, and every formula that needs the cell fails with it.
-/

set_option autoImplicit false

namespace GridCalc

inductive Category where
  | general
  | token
  | parse
  | read
  | evaluation
  | cycle
  | coercion
  | missingFunction
  | function
  deriving DecidableEq, Repr

inductive NumberFault where
  | manyPoints
  | lonePoint
  | lastPoint
  deriving DecidableEq, Repr

inductive Fault where
  | unexpectedCharacter (c : Char) (place : Nat)
  | malformedCellName (text : String) (place : Nat)
  | malformedNumber (fault : NumberFault) (place : Nat)
  | missingPower (place : Nat)
  | missingValue
  | missingOperator (text : String) (place : Nat)
  | looseRange
  | nestedTooDeeply (place : Nat)
  | missingReference (place : Nat)
  | absoluteRange
  | missingArguments (name : String)
  | unclosed
  | misplacedOperator (text : String)
  | misplacedToken (kind : TokenKind) (place : Nat)
  | missingRangeEnd (found : Option TokenKind)
  | unfinishedCall
  | malformedCall (found : TokenKind)
  | unknownCell (text : String)
  | missingDirection
  | malformedDirection (text : String)
  | malformedOffset (text : String)
  | selfClone
  | malformedRepeat (count : String) (line : Nat)
  | nothingAbove
  | divisionByZero
  | outsideTable
  | regionOutside (region : String)
  | rangeValue
  | unsettled (name : String)
  | loop
  | textOperand
  | separatorOperand
  | unknownFunction (name : String) (suggestion : Option String)
  | argumentCount (name : String) (expected given : Nat)
  | rangeWanted (index : Nat) (name : String)
  | rangeUnwanted (index : Nat) (name : String)
  | negativeRoot
  | nonpositiveLogarithm
  /-- A fault that a caller reports in words of its own. -/
  | noted (category : Category) (text : String)
  deriving DecidableEq, Repr

def Fault.category : Fault → Category
  | unexpectedCharacter .. | malformedCellName .. | malformedNumber .. | missingPower .. => .token
  | missingValue | missingOperator .. | looseRange | nestedTooDeeply .. | missingReference ..
  | absoluteRange | missingArguments .. | unclosed | misplacedOperator .. | misplacedToken ..
  | missingRangeEnd .. | unfinishedCall | malformedCall .. | unknownCell .. | missingDirection
  | malformedDirection .. | malformedOffset .. | selfClone => .parse
  | malformedRepeat .. => .read
  | nothingAbove | divisionByZero | outsideTable | regionOutside .. | rangeValue
  | unsettled .. => .evaluation
  | loop => .cycle
  | textOperand | separatorOperand => .coercion
  | unknownFunction .. => .missingFunction
  | argumentCount .. | rangeWanted .. | rangeUnwanted .. | negativeRoot
  | nonpositiveLogarithm => .function
  | noted category _ => category

def NumberFault.message : NumberFault → String
  | manyPoints => "multiple decimal points"
  | lonePoint => "lone decimal point"
  | lastPoint => "trailing decimal point"

def Fault.message : Fault → String
  | unexpectedCharacter c place => s!"Unexpected character: {c} at position {place}"
  | malformedCellName text place => s!"Invalid cell reference: {text} at position {place}"
  | malformedNumber fault place => s!"Invalid number format at position {place}: {fault.message}"
  | missingPower place => s!"Invalid scientific notation at position {place}: missing exponent"
  | missingValue => "Expected value, got nothing instead"
  | missingOperator text place => s!"Unexpected '{text}' at position {place}, expected operator"
  | looseRange => "Ranges can only be used in functions"
  | nestedTooDeeply place => s!"Formula is nested too deeply at position {place}"
  | missingReference place => s!"Expected cell reference after '$' at position {place}"
  | absoluteRange => "Absolute references cannot be used in ranges"
  | missingArguments name => s!"Expected '(' after function name '{name}'"
  | unclosed => "Expected closing parenthesis ')'"
  | misplacedOperator text => s!"Unexpected '{text}', expected value"
  | misplacedToken kind place => s!"Unexpected token: {kind.label} at position {place}"
  | missingRangeEnd none => "Expected cell reference after ':', got end of formula"
  | missingRangeEnd (some kind) => s!"Expected cell reference after ':', got {kind.label}"
  | unfinishedCall => "Unexpected end of formula in function call"
  | malformedCall kind => s!"Expected ',' or ')' in function call, got {kind.label}"
  | unknownCell text => s!"Invalid cell reference: {text}"
  | missingDirection => "No clone direction"
  | malformedDirection text => s!"Invalid clone direction '{text}'"
  | malformedOffset text => s!"Invalid clone offset '{text}'"
  | selfClone => "A cell cannot clone itself"
  | malformedRepeat count line => s!"Invalid repeat count '{count}' on line {line}"
  | nothingAbove => "Cannot duplicate above the table"
  | divisionByZero => "Division by zero"
  | outsideTable => "Cell outside table"
  | regionOutside region => s!"Range {region} is outside the table"
  | rangeValue => "Ranges can only be used in functions"
  | unsettled name => s!"{name} could not be evaluated"
  | loop => "Loop!"
  | textOperand => "Cannot operate on text"
  | separatorOperand => "Cannot operate on a separator"
  | unknownFunction name none => s!"Unknown function '{name}'"
  | unknownFunction name (some other) => s!"Unknown function '{name}', did you mean '{other}'?"
  | argumentCount name expected given => s!"{name} expects {expected} argument(s), got {given}"
  | rangeWanted index name => s!"Argument {index} of {name} must be a range"
  | rangeUnwanted index name => s!"Argument {index} of {name} cannot be a range"
  | negativeRoot => "SQRT requires non-negative input"
  | nonpositiveLogarithm => "LOG10 requires positive input"
  | noted _ text => text

end GridCalc
