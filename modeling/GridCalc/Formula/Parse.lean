import GridCalc.Decimal.Reading
import GridCalc.Formula.Node
import GridCalc.Formula.Scan
import GridCalc.Position.Name

/-!
# Parsing

A formula is parsed by descent: sums of products of signed factors. Each node is added to the
arena as soon as its operands are complete, and stays there if the rest of the formula turns out
to be malformed. Brackets, calls and signs may be nested 64 levels deep; the level decreases
with each of them, so the descent ends.
-/

set_option autoImplicit false

namespace GridCalc.Formula
open GridCalc

structure Parse where
  tokens : List Token
  arena : Arena

abbrev Parser := Action Parse

def peek : Parser (Option Token) := fun s => (.ok s.tokens.head?, s)

def tokensLeft : Parser Nat := fun s => (.ok s.tokens.length, s)

def advance : Parser Unit := Action.modify fun s => { s with tokens := s.tokens.tail }

def takeKind (kinds : List TokenKind) : Parser (Option Token) := fun s =>
  match s.tokens with
  | t :: ts =>
    if kinds.contains t.kind then (.ok (some t), { s with tokens := ts }) else (.ok none, s)
  | [] => (.ok none, s)

def addNode (n : Node) : Parser NodeId := fun s =>
  (.ok s.arena.size, { s with arena := s.arena.add n })

/-- A region may stand for itself nowhere but as an argument of a function. -/
def rejectRegion (id : NodeId) : Parser Unit := fun s =>
  match s.arena.node? id with
  | some (.region _) => (.error (.fault .looseRange), s)
  | _ => (.ok (), s)

def chainFrom (operand : Parser NodeId) (symbols : List String) :
    Nat → NodeId → Parser NodeId
  | 0, left => pure left
  | n + 1, left => do
    match ← peek with
    | none => pure left
    | some t =>
      if t.kind = .operator ∧ symbols.contains t.text then do
        advance
        let right ← operand
        rejectRegion left
        rejectRegion right
        let id ← addNode (.binary (.ofSymbol t.text) left right)
        chainFrom operand symbols n id
      else pure left

/-- Operands joined by operators of one precedence, taken together from the left. -/
def chain (operand : Parser NodeId) (symbols : List String) : Parser NodeId := do
  let left ← operand
  let n ← tokensLeft
  chainFrom operand symbols n left

def expression (unary : Parser NodeId) : Parser NodeId :=
  chain (chain unary ["*", "/"]) ["+", "-"]

def argumentsFrom (unary : Parser NodeId) : Nat → Parser (List NodeId)
  | 0 => Action.fault .unfinishedCall
  | n + 1 => do
    let argument ← expression unary
    match ← peek with
    | none => Action.fault .unfinishedCall
    | some t =>
      if t.kind = .closeParen then do
        advance
        pure [argument]
      else if t.kind = .comma then do
        advance
        let rest ← argumentsFrom unary n
        pure (argument :: rest)
      else Action.fault (.malformedCall t.kind)

def callOf (name : String) (unary : Parser NodeId) : Parser NodeId := do
  let n ← tokensLeft
  let arguments ← argumentsFrom unary (n + 1)
  addNode (.call name arguments)

def ofBreakdown {α : Type} : Except Breakdown α → Parser α
  | .ok a => pure a
  | .error b => Action.breakdown b

def resolve (here : Position) (t : Token) : Parser Position :=
  if t.kind = .relative then ofBreakdown (here.ofRelative t.text)
  else do
    match ← ofBreakdown (Position.ofName? t.text) with
    | some p => pure p
    | none => Action.fault (.unknownCell t.text)

def reference (here : Position) (t : Token) : Parser NodeId := do
  advance
  let start ← resolve here t
  match ← takeKind [.colon] with
  | none => addNode (.relative start)
  | some _ =>
    match ← takeKind [.cell, .relative] with
    | none =>
      let found ← peek
      Action.fault (.missingRangeEnd (found.map (·.kind)))
    | some last =>
      let finish ← resolve here last
      addNode (.region ⟨start, finish⟩)

def within (level : Option (Parser NodeId)) (t : Token) (body : Parser NodeId → Parser NodeId) :
    Parser NodeId :=
  match level with
  | none => Action.fault (.nestedTooDeeply t.place)
  | some unary => body unary

def factor (here : Position) (level : Option (Parser NodeId)) (t : Token) : Parser NodeId :=
  match t.kind with
  | .number => do
    advance
    match Decimal.read? t.text with
    | some x => addNode (.number x)
    | none => Action.breakdown (.decimalText t.text)
  | .cell | .relative => reference here t
  | .dollar => do
    advance
    match ← takeKind [.cell, .relative] with
    | none => Action.fault (.missingReference t.place)
    | some ref =>
      let next ← peek
      if next.map (·.kind) = some .colon then Action.fault .absoluteRange
      else
        let p ← resolve here ref
        addNode (.absolute p)
  | .name => do
    advance
    match ← takeKind [.openParen] with
    | none => Action.fault (.missingArguments t.text)
    | some _ => within level t (callOf t.text)
  | .openParen => do
    advance
    let inner ← within level t expression
    rejectRegion inner
    match ← takeKind [.closeParen] with
    | none => Action.fault .unclosed
    | some _ => pure inner
  | .operator => Action.fault (.misplacedOperator t.text)
  | kind => Action.fault (.misplacedToken kind t.place)

def unaryAt (here : Position) (level : Option (Parser NodeId)) : Parser NodeId := do
  match ← peek with
  | none => Action.fault .missingValue
  | some t =>
    if t.kind = .operator ∧ ["+", "-"].contains t.text then do
      advance
      let operand ← within level t id
      rejectRegion operand
      addNode (.sign (.ofSymbol t.text) operand)
    else factor here level t

def unary (here : Position) : Nat → Parser NodeId
  | 0 => unaryAt here none
  | n + 1 => unaryAt here (some (unary here n))

def maxLevels : Nat := 64

def parseTokens (here : Position) : Parser NodeId := do
  let root ← expression (unary here maxLevels)
  match ← peek with
  | some t => Action.fault (.missingOperator t.text t.place)
  | none =>
    rejectRegion root
    pure root

/-- Parses a formula, without the sign that introduces it, written in the cell at `here`. -/
def parse (formula : String) (here : Position) : Action Arena NodeId := fun arena =>
  match scan formula with
  | .error fault => (.error (.fault fault), arena)
  | .ok tokens =>
    let (result, state) := parseTokens here ⟨tokens, arena⟩
    (result, state.arena)

end GridCalc.Formula
