/-!
# Tokens

The words of a formula, each with the place where it starts.
-/

set_option autoImplicit false

namespace GridCalc

inductive TokenKind where
  | number
  | cell
  | relative
  | name
  | operator
  | dollar
  | openParen
  | closeParen
  | comma
  | colon
  deriving DecidableEq, Repr

def TokenKind.label : TokenKind → String
  | number => "NUMBER"
  | cell => "CELL"
  | relative => "RELATIVE"
  | name => "NAME"
  | operator => "OPERATOR"
  | dollar => "DOLLAR"
  | openParen => "LPAREN"
  | closeParen => "RPAREN"
  | comma => "COMMA"
  | colon => "COLON"

structure Token where
  kind : TokenKind
  text : String
  place : Nat
  deriving DecidableEq, Repr

end GridCalc
