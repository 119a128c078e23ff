import GridCalc.Proofs.Accepting
import GridCalc.Proofs.Cutting
import GridCalc.Proofs.Loading
import GridCalc.Proofs.Spelling

/-!
# Productions

The grammar of formulas as it is written down: a production for each form that an expression, a
term, a signed factor, a factor or an argument may have, and beside it a count of the brackets,
calls and signs around. The parser accepts what can be derived and nothing else, and what it builds
is what is derived. A text with plain digits only has no tokens that are at odds with the grammar,
unless there are too many digits in one of them: the grammar does not count the zeros in front of a
row.
-/

set_option autoImplicit false

namespace GridCalc
open Text

namespace Formula

/-- The token is a reference, written at `here`, to a position: a direction with or without a
count, or a cell in a column from A to ZZZ and a row from one. -/
inductive Reference (here : Position) (t : Token) : Position → Prop
  | next {c : Char} {d : Direction} : t.kind = .relative → t.text.toList = [c] →
      Direction.ofChar? c = some d → Reference here t (here.move d 1)
  | steps {c : Char} {d : Direction} {digits : List Char} : t.kind = .relative →
      t.text.toList = c :: digits → Direction.ofChar? c = some d → digits ≠ [] →
      (∀ x ∈ digits, isPlainDigit x) → Reference here t (here.move d (plainValue digits))
  | cell {letters digits : List Char} : t.kind = .cell → t.text.toList = letters ++ digits →
      letters ≠ [] → letters.length ≤ 3 → (∀ x ∈ letters, isColumnLetter x) → digits ≠ [] →
      (∀ x ∈ digits, isPlainDigit x) → 1 ≤ plainValue digits →
      Reference here t ⟨plainValue digits - 1, lettersValue letters - 1⟩

/-- Whether a count of steps or the row of a cell in the formula has too many digits. -/
def isLong (formula : String) : Bool :=
  match scan formula with
  | .ok tokens => tokens.any Token.isLong
  | .error _ => false

inductive Symbol where
  | expression
  | term
  | unary
  | factor
  | argument
  | arguments (name : String)

/-- The tokens, written in the cell at `here` inside `n` brackets, calls and signs, are derived as a
formula. There is no production for `$` before a region, or for a region anywhere but in a call. -/
inductive Derives (here : Position) : Symbol → Nat → List Token → Tree → Prop
  | term {n : Nat} {ts : List Token} {t : Tree} :
      Derives here .term n ts t → Derives here .expression n ts t
  | sum {n : Nat} {ls rs : List Token} {op : Token} {left right : Tree} :
      Derives here .expression n ls left → op.kind = .operator → op.text ∈ ["+", "-"] →
      Derives here .term n rs right →
      Derives here .expression n (ls ++ op :: rs) (.binary (.ofSymbol op.text) left right)
  | unary {n : Nat} {ts : List Token} {t : Tree} :
      Derives here .unary n ts t → Derives here .term n ts t
  | product {n : Nat} {ls rs : List Token} {op : Token} {left right : Tree} :
      Derives here .term n ls left → op.kind = .operator → op.text ∈ ["*", "/"] →
      Derives here .unary n rs right →
      Derives here .term n (ls ++ op :: rs) (.binary (.ofSymbol op.text) left right)
  | factor {n : Nat} {ts : List Token} {t : Tree} :
      Derives here .factor n ts t → Derives here .unary n ts t
  | sign {n : Nat} {op : Token} {ts : List Token} {t : Tree} :
      op.kind = .operator → op.text ∈ ["+", "-"] → Derives here .unary (n + 1) ts t →
      Derives here .unary n (op :: ts) (.sign (.ofSymbol op.text) t)
  | number {n : Nat} {t : Token} {x : Float} : n ≤ maxLevels → t.kind = .number →
      Decimal.read? t.text = some x → Derives here .factor n [t] (.number x)
  | reference {n : Nat} {t : Token} {p : Position} : n ≤ maxLevels → Reference here t p →
      Derives here .factor n [t] (.relative p)
  | absolute {n : Nat} {dollar t : Token} {p : Position} : n ≤ maxLevels →
      dollar.kind = .dollar → Reference here t p →
      Derives here .factor n [dollar, t] (.absolute p)
  | bracket {n : Nat} {first last : Token} {ts : List Token} {t : Tree} :
      first.kind = .openParen → Derives here .expression (n + 1) ts t → last.kind = .closeParen →
      Derives here .factor n (first :: ts ++ [last]) t
  | call {n : Nat} {name first : Token} {ts : List Token} {t : Tree} :
      name.kind = .name → first.kind = .openParen →
      Derives here (.arguments name.text) (n + 1) ts t →
      Derives here .factor n (name :: first :: ts) t
  | whole {n : Nat} {ts : List Token} {t : Tree} :
      Derives here .expression n ts t → Derives here .argument n ts t
  | region {n : Nat} {first colon last : Token} {p q : Position} : n ≤ maxLevels →
      Reference here first p → colon.kind = .colon → Reference here last q →
      Derives here .argument n [first, colon, last] (.region ⟨p, q⟩)
  | last {n : Nat} {name : String} {ts : List Token} {close : Token} {t : Tree} :
      Derives here .argument n ts t → close.kind = .closeParen →
      Derives here (.arguments name) n (ts ++ [close]) (.call name [t])
  | more {n : Nat} {name : String} {ts us : List Token} {comma : Token} {t : Tree}
      {rest : List Tree} : Derives here .argument n ts t → comma.kind = .comma →
      Derives here (.arguments name) n us (.call name rest) →
      Derives here (.arguments name) n (ts ++ comma :: us) (.call name (t :: rest))

section

variable {here : Position} {t : Token} {p : Position}

theorem isLong_relative {c : Char} {digits : List Char} (hkind : t.kind = .relative)
    (htext : t.text.toList = c :: digits) : t.isLong = false ↔ digits.length ≤ digitBound := by
  rw [Token.isLong, hkind]
  dsimp only
  rw [htext, List.tail_cons, isLong_eq_false]

theorem isLong_cell {letters digits : List Char} (hkind : t.kind = .cell)
    (htext : t.text.toList = letters ++ digits) (hletters : ∀ x ∈ letters, isColumnLetter x)
    (hdigits : ∀ x ∈ digits, isPlainDigit x) :
    t.isLong = false ↔ digits.length ≤ digitBound := by
  rw [Token.isLong, hkind]
  dsimp only
  rw [htext, takeWhile_reverse_letters hletters hdigits, isLong_eq_false, List.length_reverse]

theorem Reference.meant (h : Reference here t p) (hshort : t.isLong = false) : Meant here t p := by
  cases h with
  | next hkind htext hd =>
    refine .relative hkind ?_
    simp [Position.ofRelative, htext, hd]
  | steps hkind htext hd hne hdigits =>
    refine .relative hkind ?_
    have hbound := (isLong_relative hkind htext).1 hshort
    simp [Position.ofRelative, htext, hd, hne, integer_plain hdigits hne hbound]
  | cell hkind htext hl hlength hletters hne hdigits hrow =>
    refine .cell hkind ?_
    have hbound := (isLong_cell hkind htext hletters hdigits).1 hshort
    rw [ofName?_letters hl hletters hne hdigits htext, if_pos hbound, if_pos ⟨hrow, hlength⟩]

/-- A token as it is cut from a text with plain digits only, and not with too many of them. -/
structure IsPlain (t : Token) : Prop where
  short : t.isLong = false
  number : t.kind = .number → ∃ x, Decimal.read? t.text = some x
  relative : t.kind = .relative → ∃ c d digits, t.text.toList = c :: digits ∧
    Direction.ofChar? c = some d ∧ ∀ x ∈ digits, isPlainDigit x
  cell : t.kind = .cell → ∃ letters digits, t.text.toList = letters ++ digits ∧ letters ≠ [] ∧
    digits ≠ [] ∧ (∀ x ∈ letters, isColumnLetter x) ∧ ∀ x ∈ digits, isPlainDigit x

theorem isPlain_of_mem {formula : String}
    (hplain : ∀ c ∈ formula.toList, isDigit c → isPlainDigit c) {tokens : List Token}
    (hshort : isLong formula = false) (hscan : scan formula = .ok tokens) (ht : t ∈ tokens) :
    IsPlain t := by
  have hshort : t.isLong = false := by
    rw [isLong, hscan] at hshort
    simpa using List.any_eq_false.1 hshort t ht
  obtain ⟨c, rest, n, hsuffix, hlexeme, htext⟩ := scanFrom_mem hscan ht
  have hmem : ∀ x ∈ c :: rest.take n, isDigit x → isPlainDigit x := by
    intro x hx
    have htrim : x ∈ trim formula.toList :=
      hsuffix.subset ((List.take_subset (n + 1) (c :: rest)) hx)
    refine hplain x ?_
    have hstart := List.mem_reverse.1 ((List.dropWhile_subset _) (List.mem_reverse.1 htrim))
    exact (List.dropWhile_subset _) hstart
  refine ⟨hshort, fun hkind => ?_, fun hkind => ?_, fun hkind => ?_⟩
  · rw [hkind] at hlexeme
    cases hlexeme with
    | number hnumber =>
      rw [← htext] at hnumber hmem
      refine Option.ne_none_iff_exists'.1 (read?_number hnumber ?_)
      refine List.any_eq_false.2 fun x hx hstray => ?_
      simp only [Bool.and_eq_true, Bool.not_eq_true'] at hstray
      simp [isDecimal_of_isPlainDigit (hmem x hx hstray.1)] at hstray
    | symbol hc => exact absurd rfl (symbolKind?_ne hc).1
  · rw [hkind] at hlexeme
    cases hlexeme with
    | relative hd hdigits =>
      exact ⟨c, _, _, htext, hd, fun x hx => hmem x (by simp [hx]) (hdigits x hx)⟩
    | symbol hc => exact absurd rfl (symbolKind?_ne hc).2.1
  · rw [hkind] at hlexeme
    cases hlexeme with
    | cell hcell =>
      simp only [isCellName, Bool.and_eq_true, Bool.not_eq_true', List.isEmpty_eq_false_iff,
        List.all_eq_true] at hcell
      obtain ⟨⟨hletters, hdigits⟩, hdecimal⟩ := hcell
      refine ⟨_, _, htext.trans List.takeWhile_append_dropWhile.symm, hletters, hdigits,
        List.all_eq_true.1 List.all_takeWhile, fun x hx => ?_⟩
      exact hmem x (List.dropWhile_subset _ hx) (isDigit_of_isDecimal (hdecimal x hx))
    | symbol hc => exact absurd rfl (symbolKind?_ne hc).2.2.1

theorem IsPlain.reference (ht : IsPlain t) (h : Meant here t p) : Reference here t p := by
  cases h with
  | relative hkind hp =>
    obtain ⟨c, d, digits, htext, hd, hdigits⟩ := ht.relative hkind
    unfold Position.ofRelative at hp
    rw [htext] at hp
    simp only [hd] at hp
    by_cases hne : digits = []
    · subst hne
      cases hp
      exact .next hkind htext hd
    · have hbound := (isLong_relative hkind htext).1 ht.short
      rw [if_neg hne, integer_plain hdigits hne hbound] at hp
      cases hp
      exact .steps hkind htext hd hne hdigits
  | cell hkind hp =>
    obtain ⟨letters, digits, htext, hl, hne, hletters, hdigits⟩ := ht.cell hkind
    have hbound := (isLong_cell hkind htext hletters hdigits).1 ht.short
    rw [ofName?_letters hl hletters hne hdigits htext, if_pos hbound] at hp
    split at hp
    · next hbounds =>
      cases hp
      exact .cell hkind htext hl hbounds.2 hletters hne hdigits hbounds.1
    · cases hp

theorem IsPlain.not_unreadable {b : Breakdown} (ht : IsPlain t) : ¬ Unreadable here t b := by
  rintro (⟨hkind, hread⟩ | ⟨hkind, hread⟩ | ⟨hkind, hread⟩)
  · obtain ⟨x, hx⟩ := ht.number hkind
    simp [hx] at hread
  · obtain ⟨c, d, digits, htext, hd, hdigits⟩ := ht.relative hkind
    unfold Position.ofRelative at hread
    rw [htext] at hread
    simp only [hd] at hread
    by_cases hne : digits = []
    · simp [hne] at hread
    · have hbound := (isLong_relative hkind htext).1 ht.short
      simp [hne, integer_plain hdigits hne hbound] at hread
  · obtain ⟨letters, digits, htext, hl, hne, hletters, hdigits⟩ := ht.cell hkind
    have hbound := (isLong_cell hkind htext hletters hdigits).1 ht.short
    rw [ofName?_letters hl hletters hne hdigits htext, if_pos hbound] at hread
    cases hread

end

section

variable {here : Position} {n m : Nat} {ts : List Token} {t : Tree}

def Symbol.Writes (here : Position) (m : Nat) (ts : List Token) (t : Tree) : Symbol → Prop
  | .expression => Sum (Unary here m) ts t
  | .term => Product (Unary here m) ts t
  | .unary | .factor => Unary here m ts t
  | .argument => Argument here (Sum (Unary here m)) ts t
  | .arguments name => ∃ trees, t = .call name trees ∧
    Arguments (Argument here (Sum (Unary here m))) ts trees

theorem unary_of_unaryAt (h : ∀ level, UnaryAt here level ts t) : Unary here m ts t := by
  cases m with
  | zero => exact h none
  | succ m => exact h _

theorem Derives.writes {symbol : Symbol} (h : Derives here symbol n ts t)
    (hshort : ∀ x ∈ ts, x.isLong = false) :
    n ≤ maxLevels ∧ symbol.Writes here (maxLevels - n) ts t := by
  have hlevel : ∀ {n}, n + 1 ≤ maxLevels → maxLevels - n = maxLevels - (n + 1) + 1 := by
    intro n hn
    omega
  induction h with
  | term _ ih =>
    have ih := ih hshort
    exact ⟨ih.1, .operand ih.2⟩
  | sum _ hkind hsymbol _ ihl ihr =>
    have ihl := ihl fun x hx => hshort x (by simp [hx])
    have ihr := ihr fun x hx => hshort x (by simp [hx])
    exact ⟨ihl.1, .more ihl.2 hkind hsymbol ihr.2⟩
  | unary _ ih =>
    have ih := ih hshort
    exact ⟨ih.1, .operand ih.2⟩
  | product _ hkind hsymbol _ ihl ihr =>
    have ihl := ihl fun x hx => hshort x (by simp [hx])
    have ihr := ihr fun x hx => hshort x (by simp [hx])
    exact ⟨ihl.1, .more ihl.2 hkind hsymbol ihr.2⟩
  | factor _ ih => exact ih hshort
  | sign hkind hsymbol _ ih =>
    have ih := ih fun x hx => hshort x (by simp [hx])
    refine ⟨Nat.le_of_succ_le ih.1, ?_⟩
    rw [Symbol.Writes, hlevel ih.1]
    exact UnaryAt.sign rfl hkind hsymbol ih.2
  | number hn hkind hx => exact ⟨hn, unary_of_unaryAt fun _ => .number hkind hx⟩
  | reference hn hp =>
    exact ⟨hn, unary_of_unaryAt fun _ => .relative (hp.meant (hshort _ (by simp)))⟩
  | absolute hn hdollar hp =>
    exact ⟨hn, unary_of_unaryAt fun _ => .absolute hdollar (hp.meant (hshort _ (by simp)))⟩
  | bracket hfirst _ hlast ih =>
    have ih := ih fun x hx => hshort x (by simp [hx])
    refine ⟨Nat.le_of_succ_le ih.1, ?_⟩
    rw [Symbol.Writes, hlevel ih.1]
    exact UnaryAt.bracket rfl hfirst hlast ih.2
  | call hname hfirst _ ih =>
    have ih := ih fun x hx => hshort x (by simp [hx])
    refine ⟨Nat.le_of_succ_le ih.1, ?_⟩
    rw [Symbol.Writes, hlevel ih.1]
    obtain ⟨trees, rfl, harguments⟩ := ih.2
    exact UnaryAt.call rfl hname hfirst harguments
  | whole _ ih =>
    have ih := ih hshort
    exact ⟨ih.1, .whole ih.2⟩
  | region hn hp hcolon hq =>
    exact ⟨hn, .region (hp.meant (hshort _ (by simp))) hcolon (hq.meant (hshort _ (by simp)))⟩
  | last _ hclose ih =>
    have ih := ih fun x hx => hshort x (by simp [hx])
    exact ⟨ih.1, _, rfl, .last ih.2 hclose⟩
  | more _ hcomma _ ih ihrest =>
    have ih := ih fun x hx => hshort x (by simp [hx])
    obtain ⟨trees, heq, harguments⟩ := (ihrest fun x hx => hshort x (by simp [hx])).2
    cases heq
    exact ⟨ih.1, _, rfl, .next ih.2 hcomma harguments⟩

def Produces (here : Position) (n : Nat) (U : Phrase) (symbol : Symbol) : Prop :=
  ∀ ⦃ts t⦄, U ts t → (∀ x ∈ ts, IsPlain x) → Derives here symbol n ts t

variable {U : Phrase}

theorem Product.produces (hU : Produces here n U .unary) : Produces here n (Product U) .term := by
  intro ts t h hplain
  induction h with
  | operand h => exact .unary (hU h hplain)
  | more _ hkind hsymbol hr ih =>
    exact .product (ih fun x hx => hplain x (by simp [hx])) hkind hsymbol
      (hU hr fun x hx => hplain x (by simp [hx]))

theorem Sum.produces (hU : Produces here n U .unary) : Produces here n (Sum U) .expression := by
  intro ts t h hplain
  induction h with
  | operand h => exact .term (Product.produces hU h hplain)
  | more _ hkind hsymbol hr ih =>
    exact .sum (ih fun x hx => hplain x (by simp [hx])) hkind hsymbol
      (Product.produces hU hr fun x hx => hplain x (by simp [hx]))

theorem Argument.produces (hn : n ≤ maxLevels) (hU : Produces here n U .unary) :
    Produces here n (Argument here (Sum U)) .argument := by
  intro ts t h hplain
  cases h with
  | whole h => exact .whole (Sum.produces hU h hplain)
  | region hp hcolon hq =>
    exact .region hn ((hplain _ (by simp)).reference hp) hcolon
      ((hplain _ (by simp)).reference hq)

theorem Arguments.produces (hn : n ≤ maxLevels) (hU : Produces here n U .unary) (name : String)
    {trees : List Tree} (h : Arguments (Argument here (Sum U)) ts trees)
    (hplain : ∀ x ∈ ts, IsPlain x) : Derives here (.arguments name) n ts (.call name trees) := by
  induction h with
  | last h hclose =>
    exact .last (Argument.produces hn hU h fun x hx => hplain x (by simp [hx])) hclose
  | next h hcomma _ ih =>
    exact .more (Argument.produces hn hU h fun x hx => hplain x (by simp [hx])) hcomma
      (ih fun x hx => hplain x (by simp [hx]))

theorem UnaryAt.produces {level : Option Phrase} (hn : n ≤ maxLevels)
    (hlevel : ∀ U, level = some U → n + 1 ≤ maxLevels ∧ Produces here (n + 1) U .unary) :
    Produces here n (UnaryAt here level) .unary := by
  intro ts t h hplain
  cases h with
  | number hkind hx => exact .factor (.number hn hkind hx)
  | relative hp => exact .factor (.reference hn ((hplain _ (by simp)).reference hp))
  | absolute hdollar hp => exact .factor (.absolute hn hdollar ((hplain _ (by simp)).reference hp))
  | sign hU hkind hsymbol h =>
    exact .sign hkind hsymbol ((hlevel _ hU).2 h fun x hx => hplain x (by simp [hx]))
  | bracket hU hfirst hlast h =>
    exact .factor (.bracket hfirst
      (Sum.produces (hlevel _ hU).2 h fun x hx => hplain x (by simp [hx])) hlast)
  | @call name first ts _ _ hU hname hfirst h =>
    obtain ⟨hn', hproduces⟩ := hlevel _ hU
    exact .factor (.call hname hfirst
      (Arguments.produces hn' hproduces name.text h fun x hx => hplain x (by simp [hx])))

theorem Unary.produces (h : n + m = maxLevels) : Produces here n (Unary here m) .unary := by
  induction m generalizing n with
  | zero => exact UnaryAt.produces (by omega) (by simp)
  | succ m ih =>
    refine UnaryAt.produces (by omega) ?_
    rintro _ ⟨⟩
    exact ⟨by omega, ih (by omega)⟩

theorem derives_iff (hplain : ∀ x ∈ ts, IsPlain x) :
    Derives here .expression 0 ts t ↔ Writes here ts t :=
  ⟨fun h => (h.writes fun x hx => (hplain x hx).short).2,
    fun h => Sum.produces (Unary.produces (by simp)) h hplain⟩

end

/-- A formula without digits of other scripts, and with no more of them in a count of steps or in
the row of a cell than a whole number may have, is parsed just if it is cut into tokens that are
derived as an expression, and then the tree of its root is the one that is derived. Its numbers and
directions are never at fault; if nothing is derived, it stops with a fault of cutting or of
parsing. -/
theorem parse_productions {formula : String}
    (hplain : ∀ c ∈ formula.toList, isDigit c → isPlainDigit c)
    (hshort : isLong formula = false) (here : Position) (a : Arena) :
    (∀ tokens, scan formula = .ok tokens → ∀ t ∈ tokens,
      (t.kind = .number → ∃ x, Decimal.read? t.text = some x) ∧
        (t.kind = .relative → ∃ p, Reference here t p)) ∧
    ((∃ root b, parse formula here a = (.ok root, b)) ↔
      ∃ tokens t, scan formula = .ok tokens ∧ Derives here .expression 0 tokens t) ∧
    (∀ root b tokens t, parse formula here a = (.ok root, b) → scan formula = .ok tokens →
      Derives here .expression 0 tokens t → b.Spells root t) ∧
    ((¬ ∃ tokens t, scan formula = .ok tokens ∧ Derives here .expression 0 tokens t) →
      ∃ f b, parse formula here a = (.error (.fault f), b) ∧
        (f.category = .token ∨ f.category = .parse)) := by
  have htokens : ∀ {tokens}, scan formula = .ok tokens → ∀ x ∈ tokens, IsPlain x :=
    fun hscan x hx => isPlain_of_mem hplain hshort hscan hx
  have haccepts : ∀ {tokens t}, scan formula = .ok tokens → Derives here .expression 0 tokens t →
      ∃ root b, parse formula here a = (.ok root, b) ∧ a.Grows b ∧ b.Spells root t :=
    fun hscan h => parse_writes hscan ((derives_iff (htokens hscan)).1 h)
  have hderives : ∀ {root b}, parse formula here a = (.ok root, b) →
      ∃ tokens t, scan formula = .ok tokens ∧ Derives here .expression 0 tokens t := by
    intro root b hparse
    obtain ⟨tokens, t, hscan, hwrites, -, -⟩ := parse_ok hparse
    exact ⟨tokens, t, hscan, (derives_iff (htokens hscan)).2 hwrites⟩
  refine ⟨fun tokens hscan t ht => ?_, ⟨?_, ?_⟩, ?_, fun hnone => ?_⟩
  · have hp := htokens hscan t ht
    refine ⟨hp.number, fun hkind => ?_⟩
    obtain ⟨c, d, digits, htext, hd, hdigits⟩ := hp.relative hkind
    by_cases hne : digits = []
    · exact ⟨_, .next hkind (hne ▸ htext) hd⟩
    · exact ⟨_, .steps hkind htext hd hne hdigits⟩
  · rintro ⟨root, b, hparse⟩
    exact hderives hparse
  · rintro ⟨tokens, t, hscan, h⟩
    obtain ⟨root, b, hparse, -⟩ := haccepts hscan h
    exact ⟨root, b, hparse⟩
  · intro root b tokens t hparse hscan h
    obtain ⟨root', b', hparse', -, hspells⟩ := haccepts hscan h
    cases hparse.symm.trans hparse'
    exact hspells
  · rcases hparse : parse formula here a with ⟨result, b⟩
    cases result with
    | ok root => exact absurd (hderives hparse) hnone
    | error e =>
      rcases parse_error hparse with ⟨f, rfl, hf⟩ | ⟨tokens, t, c, hscan, ht, -, hc⟩
      · exact ⟨f, b, rfl, hf.imp (·.2) (·.2)⟩
      · exact absurd hc (htokens hscan t ht).not_unreadable

def sumArguments : Arena :=
  ⟨#[.number 2.0, .region ⟨⟨0, 0⟩, ⟨1, 1⟩⟩, .absolute ⟨2, 1⟩, .call "sum" [1, 2],
    .binary .subtract 0 3]⟩

theorem parse_productions_arguments :
    (∀ c ∈ "2-sum(A1:>,$B3)".toList, isDigit c → isPlainDigit c) ∧
      isLong "2-sum(A1:>,$B3)" = false ∧
      parse "2-sum(A1:>,$B3)" ⟨1, 0⟩ .empty = (.ok 4, sumArguments) ∧
      ∃ tokens, scan "2-sum(A1:>,$B3)" = .ok tokens ∧ Derives ⟨1, 0⟩ .expression 0 tokens
        (.binary .subtract (.number 2.0)
          (.call "sum" [.region ⟨⟨0, 0⟩, ⟨1, 1⟩⟩, .absolute ⟨2, 1⟩])) := by
  have hplain : ∀ c ∈ "2-sum(A1:>,$B3)".toList, isDigit c → isPlainDigit c :=
    List.all_iff_forall_prop.1 (by decide +kernel)
  have hshort : isLong "2-sum(A1:>,$B3)" = false := by decide +kernel
  have hparse : parse "2-sum(A1:>,$B3)" ⟨1, 0⟩ .empty = (.ok 4, sumArguments) := by
    decide +kernel
  obtain ⟨-, haccepts, hspells, -⟩ := parse_productions hplain hshort ⟨1, 0⟩ .empty
  obtain ⟨tokens, t, hscan, hderives⟩ := haccepts.1 ⟨4, sumArguments, hparse⟩
  have hcall :
      sumArguments.Spells 3 (.call "sum" [.region ⟨⟨0, 0⟩, ⟨1, 1⟩⟩, .absolute ⟨2, 1⟩]) := by
    refine .call rfl (by decide) rfl ?_
    simp only [List.zip_cons_cons, List.zip_nil_left, List.forall_mem_cons]
    exact ⟨.region rfl, .absolute rfl, by simp⟩
  obtain rfl := (hspells 4 sumArguments tokens t hparse hscan hderives).unique
    (.binary rfl (by decide) (by decide) (.number rfl) hcall)
  exact ⟨hplain, hshort, hparse, tokens, hscan, hderives⟩

section

variable {formula : String} {t : Token} {b : Breakdown}

theorem parse_unread (here : Position) (a : Arena) (hscan : scan formula = .ok [t])
    (hkind : t.kind = .cell) (hread : Position.ofName? t.text = .error b) :
    parse formula here a = (.error (.breakdown b), a) := by
  have hresolve : resolve here t ⟨[], a⟩ = (.error (.breakdown b), ⟨[], a⟩) := by
    rw [resolve, if_neg (by simp [hkind]), hread]
    rfl
  have hreference : reference here t ⟨[t], a⟩ = (.error (.breakdown b), ⟨[], a⟩) := by
    rw [reference, advance_bind, Action.bind_error hresolve]
  have hunary : unary here maxLevels ⟨[t], a⟩ = (.error (.breakdown b), ⟨[], a⟩) := by
    show unaryAt here _ ⟨[t], a⟩ = _
    rw [unaryAt, peek_bind]
    dsimp only
    rw [if_neg (by simp [hkind]), factor, hkind]
    exact hreference
  have hchain : ∀ {operand : Parser NodeId} {symbols : List String},
      operand ⟨[t], a⟩ = (.error (.breakdown b), ⟨[], a⟩) →
      chain operand symbols ⟨[t], a⟩ = (.error (.breakdown b), ⟨[], a⟩) := fun h => by
    rw [chain, Action.bind_error h]
  have hexpression : expression (unary here maxLevels) ⟨[t], a⟩ =
      (.error (.breakdown b), ⟨[], a⟩) := hchain (hchain hunary)
  rw [parse, hscan]
  dsimp only
  rw [parseTokens, Action.bind_error hexpression]

end

def zeroedRow : List Char := List.replicate digitBound '0' ++ ['1']

def zeroedCell : Token := ⟨.cell, String.ofList (['A'] ++ zeroedRow), 0⟩

theorem plainValue_zeros (n : ℕ) (digits : List Char) :
    plainValue (List.replicate n '0' ++ digits) = plainValue digits := by
  induction n with
  | zero => rfl
  | succ n ih => exact ih

theorem zeroedRow_ne_nil : zeroedRow ≠ [] := List.append_ne_nil_of_right_ne_nil _ (by simp)

theorem length_zeroedRow : zeroedRow.length = digitBound + 1 := by
  rw [zeroedRow, List.length_append, List.length_replicate]
  rfl

theorem isPlainDigit_zeroedRow : ∀ c ∈ zeroedRow, isPlainDigit c := by
  rw [zeroedRow, List.forall_mem_append]
  refine ⟨fun c hc => ?_, by simp [isPlainDigit]⟩
  rw [List.eq_of_mem_replicate hc]
  rfl

theorem isColumnLetter_first : ∀ c ∈ ['A'], isColumnLetter c := by simp [isColumnLetter]

theorem reference_zeroedCell : Reference ⟨0, 0⟩ zeroedCell ⟨0, 0⟩ := by
  have hvalue : plainValue zeroedRow = 1 := plainValue_zeros digitBound ['1']
  have hcell : Reference ⟨0, 0⟩ zeroedCell ⟨plainValue zeroedRow - 1, lettersValue ['A'] - 1⟩ :=
    .cell rfl String.toList_ofList (by decide) (by decide) isColumnLetter_first zeroedRow_ne_nil
      isPlainDigit_zeroedRow (by rw [hvalue])
  rwa [hvalue] at hcell

theorem scan_zeroedCell : scan zeroedCell.text = .ok [zeroedCell] := by
  have hends : Ends [] := ⟨by simp, rfl⟩
  have hcut : scanFrom 0 (['A'] ++ zeroedRow ++ []) = _ :=
    scanFrom_letters (by decide) isColumnLetter_first zeroedRow_ne_nil isPlainDigit_zeroedRow hends
  rw [List.append_nil] at hcut
  rw [scan, zeroedCell, String.toList_ofList,
    (bare_letters (by decide) isColumnLetter_first zeroedRow_ne_nil isPlainDigit_zeroedRow).trim,
    hcut, scanFrom]
  rfl

/-- The formula that is this cell is derived, and yet it is not parsed. -/
theorem parse_zeroedCell :
    (∀ c ∈ zeroedCell.text.toList, isDigit c → isPlainDigit c) ∧
      scan zeroedCell.text = .ok [zeroedCell] ∧
      Derives ⟨0, 0⟩ .expression 0 [zeroedCell] (.relative ⟨0, 0⟩) ∧
      parse zeroedCell.text ⟨0, 0⟩ .empty =
        (.error (.breakdown (.digitsRead (digitBound + 1))), .empty) := by
  have hread : Position.ofName? zeroedCell.text = .error (.digitsRead (digitBound + 1)) := by
    rw [zeroedCell, ofName?_letters (by decide) isColumnLetter_first zeroedRow_ne_nil
      isPlainDigit_zeroedRow String.toList_ofList, length_zeroedRow,
      if_neg (Nat.not_succ_le_self _)]
  refine ⟨?_, scan_zeroedCell,
    .term (.unary (.factor (.reference (Nat.zero_le _) reference_zeroedCell))),
    parse_unread _ _ scan_zeroedCell rfl hread⟩
  rw [zeroedCell, String.toList_ofList, List.forall_mem_append]
  refine ⟨fun c hc hdigit => ?_, fun c hc _ => isPlainDigit_zeroedRow c hc⟩
  rw [List.mem_singleton.1 hc] at hdigit
  exact absurd hdigit (by decide)

end Formula

end GridCalc
