import GridCalc.Formula.Parse
import GridCalc.Proofs.Arena

/-!
# The grammar of formulas

Which tokens write which formula. A sum is a chain of products and a product a chain of signed
factors, each taken together from the left. Brackets, calls and signs lead one level further in,
and at the last level only numbers and references are left. A region is written nowhere but as an
argument.
-/

set_option autoImplicit false

namespace GridCalc.Formula
open GridCalc

abbrev Phrase := List Token → Tree → Prop

/-- The token, a reference written at `here`, means a position. -/
inductive Meant (here : Position) (t : Token) : Position → Prop
  | relative {p : Position} : t.kind = .relative → here.ofRelative t.text = .ok p → Meant here t p
  | cell {p : Position} : t.kind = .cell → Position.ofName? t.text = .ok (some p) → Meant here t p

inductive Chain (operand : Phrase) (symbols : List String) : Phrase
  | operand {ts : List Token} {t : Tree} : operand ts t → Chain operand symbols ts t
  | more {ls rs : List Token} {op : Token} {left right : Tree} : Chain operand symbols ls left →
      op.kind = .operator → op.text ∈ symbols → operand rs right →
      Chain operand symbols (ls ++ op :: rs) (.binary (.ofSymbol op.text) left right)

def tightSymbols : List String := ["*", "/"]

def looseSymbols : List String := ["+", "-"]

def Product (unary : Phrase) : Phrase := Chain unary tightSymbols

def Sum (unary : Phrase) : Phrase := Chain (Product unary) looseSymbols

inductive Argument (here : Position) (whole : Phrase) : Phrase
  | whole {ts : List Token} {t : Tree} : whole ts t → Argument here whole ts t
  | region {first colon last : Token} {p q : Position} : Meant here first p →
      colon.kind = .colon → Meant here last q →
      Argument here whole [first, colon, last] (.region ⟨p, q⟩)

inductive Arguments (argument : Phrase) : List Token → List Tree → Prop
  | last {ts : List Token} {t : Tree} {close : Token} : argument ts t →
      close.kind = .closeParen → Arguments argument (ts ++ [close]) [t]
  | next {ts us : List Token} {t : Tree} {rest : List Tree} {comma : Token} : argument ts t →
      comma.kind = .comma → Arguments argument us rest →
      Arguments argument (ts ++ comma :: us) (t :: rest)

/-- Signed factors; what stands in brackets, in a call or behind a sign is one level further in, if
there is a level left. -/
inductive UnaryAt (here : Position) (level : Option Phrase) : Phrase
  | number {t : Token} {x : Float} : t.kind = .number → Decimal.read? t.text = some x →
      UnaryAt here level [t] (.number x)
  | relative {t : Token} {p : Position} : Meant here t p → UnaryAt here level [t] (.relative p)
  | absolute {dollar t : Token} {p : Position} : dollar.kind = .dollar → Meant here t p →
      UnaryAt here level [dollar, t] (.absolute p)
  | sign {sign : Token} {ts : List Token} {operand : Tree} {inner : Phrase} :
      level = some inner → sign.kind = .operator → sign.text ∈ looseSymbols → inner ts operand →
      UnaryAt here level (sign :: ts) (.sign (.ofSymbol sign.text) operand)
  | bracket {first last : Token} {ts : List Token} {t : Tree} {inner : Phrase} :
      level = some inner → first.kind = .openParen → last.kind = .closeParen → Sum inner ts t →
      UnaryAt here level (first :: ts ++ [last]) t
  | call {name first : Token} {ts : List Token} {arguments : List Tree} {inner : Phrase} :
      level = some inner → name.kind = .name → first.kind = .openParen →
      Arguments (Argument here (Sum inner)) ts arguments →
      UnaryAt here level (name :: first :: ts) (.call name.text arguments)

def Unary (here : Position) : Nat → Phrase
  | 0 => UnaryAt here none
  | n + 1 => UnaryAt here (some (Unary here n))

/-- The tokens, written in the cell at `here`, are a formula. -/
def Writes (here : Position) : Phrase := Sum (Unary here maxLevels)

def Phrase.Whole (r : Phrase) : Prop := ∀ {ts t}, r ts t → ¬ t.IsRegion

variable {here : Position} {operand unary : Phrase} {symbols : List String}

theorem Chain.whole (h : operand.Whole) : (Chain operand symbols).Whole := by
  intro ts t hc
  cases hc with
  | operand ho => exact h ho
  | more => simp [Tree.IsRegion]

theorem Sum.whole (h : unary.Whole) : (Sum unary).Whole := Chain.whole (Chain.whole h)

theorem UnaryAt.whole {level : Option Phrase} (h : ∀ inner, level = some inner → inner.Whole) :
    (UnaryAt here level).Whole := by
  intro ts t hu
  cases hu with
  | bracket hl _ _ hs => exact Sum.whole (h _ hl) hs
  | _ => simp [Tree.IsRegion]

end GridCalc.Formula
