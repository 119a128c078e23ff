import GridCalc.Formula.Written
import GridCalc.Proofs.Digits
import GridCalc.Proofs.Grammar
import GridCalc.Proofs.Naming

/-!
# The pieces of a written formula

A formula is written out as a row of words, with single blanks around the operators and after the
commas. Whatever can be written, its place in an arena is written as this row.
-/

set_option autoImplicit false

namespace GridCalc
open Formula

/-- A part of a written formula. -/
inductive Piece where
  | blank
  | word (kind : TokenKind) (chars : List Char)

namespace Piece

def chars : Piece → List Char
  | blank => [' ']
  | word _ cs => cs

def word? : Piece → Option (TokenKind × List Char)
  | blank => none
  | word kind cs => some (kind, cs)

def operator (op : Operator) : Piece := word .operator op.symbol.toList

def first : Piece := word .openParen ['(']

def last : Piece := word .closeParen [')']

def comma : Piece := word .comma [',']

def cell (p : Position) : Piece := word .cell (p.letters ++ p.digits)

end Piece

def enclosed (needed : Bool) (ps : List Piece) : List Piece :=
  if needed then .first :: ps ++ [.last] else ps

namespace Tree

def isChain (symbols : List String) : Tree → Bool
  | binary op _ _ => symbols.contains op.symbol
  | _ => false

def isBinary : Tree → Bool
  | binary .. => true
  | _ => false

/-- The brackets that the operands of an operator need. -/
def brackets (op : Operator) (left right : Tree) : Bool × Bool :=
  if tightSymbols.contains op.symbol then (left.isChain looseSymbols, right.isChain looseSymbols)
  else (false, op == .subtract && right.isChain looseSymbols)

mutual

def pieces : Tree → List Piece
  | number x => [.word .number (Decimal.numeral x).toList]
  | relative p => [.cell p]
  | absolute p => [.word .dollar ['$'], .cell p]
  | region r => [.cell r.start, .word .colon [':'], .cell r.finish]
  | binary op left right =>
    enclosed (brackets op left right).1 left.pieces ++
      .blank :: .operator op :: .blank :: enclosed (brackets op left right).2 right.pieces
  | sign op operand => .operator op :: enclosed operand.isBinary operand.pieces
  | call name arguments => .word .name name.toList :: .first :: argumentPieces arguments ++ [.last]

def argumentPieces : List Tree → List Piece
  | [] => []
  | [t] => t.pieces
  | t :: u :: us => t.pieces ++ .comma :: .blank :: argumentPieces (u :: us)

end

end Tree

def charsOf (ps : List Piece) : List Char := ps.flatMap Piece.chars

def Tree.text (t : Tree) : String := String.ofList (charsOf t.pieces)

/-- A name of a function, as it is cut from a formula. -/
inductive IsWord : List Char → Prop
  | mk {c : Char} {cs : List Char} : Text.isBlank c = false → (Text.isDigit c || c == '.') = false →
      pointsAway c = false → (Text.isLetter c || c == '_') → (∀ x ∈ cs, isWordPart x) →
      (startsWith (· == 'v') (c :: cs) && cs.all Text.isDigit) = false → IsWord (c :: cs)

theorem IsWord.start {cs : List Char} (h : IsWord cs) :
    ∃ c rest, cs = c :: rest ∧ Text.isBlank c = false := by
  cases h with
  | mk hblank => exact ⟨_, _, rfl, hblank⟩

/-- What can be written so that it is read back. -/
inductive Tree.Writable : Tree → Prop
  | number {x : Float} {m : Nat} {e : Int} : Decimal.value x = .finite false m e →
      Writable (.number x)
  | relative {p : Position} : p.IsWritable → Writable (.relative p)
  | absolute {p : Position} : p.IsWritable → Writable (.absolute p)
  | region {r : Region} : r.start.IsWritable → r.finish.IsWritable → Writable (.region r)
  | binary {op : Operator} {left right : Tree} : op.IsArithmetic → Writable left →
      Writable right → Writable (.binary op left right)
  | sign {op : Operator} {operand : Tree} : op.IsArithmetic → Writable operand →
      Writable (.sign op operand)
  | call {name : String} {arguments : List Tree} : IsWord name.toList → arguments ≠ [] →
      (∀ t ∈ arguments, Writable t) → Writable (.call name arguments)

section

variable {a : Arena} {id l r : NodeId} {t left right : Tree} {op : Operator}

theorem Tree.Writable.operands (h : (Tree.binary op left right).Writable) :
    left.Writable ∧ right.Writable := by
  cases h with
  | binary _ hl hr => exact ⟨hl, hr⟩

@[simp]
theorem charsOf_nil : charsOf [] = [] := rfl

theorem charsOf_append (ps qs : List Piece) : charsOf (ps ++ qs) = charsOf ps ++ charsOf qs :=
  List.flatMap_append

theorem charsOf_cons (p : Piece) (ps : List Piece) : charsOf (p :: ps) = p.chars ++ charsOf ps :=
  List.flatMap_cons

theorem isTight_of_isArithmetic (h : op.IsArithmetic) :
    op.isTight = tightSymbols.contains op.symbol := by
  cases op with
  | other s => exact absurd rfl (h s)
  | _ => rfl

theorem isLoose_of_isArithmetic (h : op.IsArithmetic) :
    op.isLoose = looseSymbols.contains op.symbol := by
  cases op with
  | other s => exact absurd rfl (h s)
  | _ => rfl

theorem isLoose_of_spells (h : a.Spells id t) (ht : t.Writable) :
    a.isLoose id = t.isChain looseSymbols := by
  cases h with
  | binary hn =>
    cases ht with
    | binary hop => simp only [Arena.isLoose, hn, isLoose_of_isArithmetic hop, Tree.isChain]
  | _ => simp only [Arena.isLoose, *]; rfl

theorem isBinary_of_spells (h : a.Spells id t) : a.isBinary id = t.isBinary := by
  cases h <;> simp only [Arena.isBinary, *] <;> rfl

theorem brackets_of_spells (hop : op.IsArithmetic) (hl : a.Spells l left) (hr : a.Spells r right)
    (hleft : left.Writable) (hright : right.Writable) :
    a.brackets op l r = Tree.brackets op left right := by
  rw [Arena.brackets, Tree.brackets, isTight_of_isArithmetic hop, isLoose_of_spells hl hleft,
    isLoose_of_spells hr hright]

theorem bracketed_ofList (needed : Bool) (ps : List Piece) :
    bracketed needed (String.ofList (charsOf ps)) =
      String.ofList (charsOf (enclosed needed ps)) := by
  cases needed with
  | false => rfl
  | true =>
    show "(" ++ String.ofList (charsOf ps) ++ ")" = _
    rw [← String.toList_inj]
    simp [enclosed, charsOf, Piece.first, Piece.last, Piece.chars]

theorem name_of_isWritable {p : Position} (h : p.IsWritable) :
    p.name = .ok (String.ofList (charsOf [.cell p])) := by
  simpa [charsOf, Piece.cell, Piece.chars] using h.name

theorem intercalate_texts (ts : List Tree) :
    ", ".intercalate (ts.map Tree.text) = String.ofList (charsOf (Tree.argumentPieces ts)) := by
  induction ts with
  | nil => rfl
  | cons t ts ih =>
    cases ts with
    | nil =>
      rw [List.map_singleton, String.intercalate_singleton, Tree.argumentPieces]
      rfl
    | cons u us =>
      rw [List.map_cons] at ih ⊢
      rw [List.map_cons, String.intercalate_cons_cons, ih, Tree.argumentPieces, ← String.toList_inj]
      simp [Tree.text, charsOf, Piece.comma, Piece.chars]

theorem mapM_texts {part : NodeId → Except Breakdown String} {ids : List NodeId}
    {ts : List Tree} (hlength : ids.length = ts.length)
    (h : ∀ x ∈ ids.zip ts, part x.1 = .ok x.2.text) : ids.mapM part = .ok (ts.map Tree.text) := by
  induction ids generalizing ts with
  | nil =>
    obtain rfl := List.eq_nil_of_length_eq_zero hlength.symm
    rfl
  | cons id ids ih =>
    obtain ⟨t, ts, rfl⟩ := List.exists_cons_of_length_eq_add_one hlength.symm
    rw [List.mapM_cons, h (id, t) (by simp),
      ih (Nat.succ.inj hlength) fun x hx => h x (by simp [hx])]
    rfl

theorem writtenWithin_node {n : Node} (hn : a.node? id = some n) {k : Nat} (hk : id < k) :
    ∃ k', k = k' + 1 ∧ a.writtenWithin k id = a.writtenNode (a.writtenWithin k') n := by
  obtain ⟨k, rfl⟩ := Nat.exists_eq_succ_of_ne_zero (Nat.ne_zero_of_lt hk)
  refine ⟨k, rfl, ?_⟩
  rw [Arena.writtenWithin, Arena.find, hn]
  rfl

theorem writtenWithin_spells (h : a.Spells id t) (ht : t.Writable) {k : Nat} (hk : id < k) :
    a.writtenWithin k id = .ok t.text := by
  induction h generalizing k with
  | number hn =>
    obtain ⟨k, rfl, hrun⟩ := writtenWithin_node hn hk
    rw [hrun, Tree.text, Tree.pieces, charsOf, List.flatMap_singleton]
    exact congrArg Except.ok String.ofList_toList.symm
  | relative hn =>
    cases ht with
    | relative hp =>
      obtain ⟨k, rfl, hrun⟩ := writtenWithin_node hn hk
      rw [hrun, Tree.text, Tree.pieces]
      exact name_of_isWritable hp
  | @absolute _ p hn =>
    cases ht with
    | absolute hp =>
      obtain ⟨k, rfl, hrun⟩ := writtenWithin_node hn hk
      rw [hrun, Arena.writtenNode, name_of_isWritable hp]
      show Except.ok ("$" ++ String.ofList (charsOf [.cell p])) = _
      refine congrArg Except.ok (String.toList_inj.1 ?_)
      simp [Tree.text, Tree.pieces, charsOf_cons, Piece.chars]
  | @region _ r hn =>
    cases ht with
    | region hp hq =>
      obtain ⟨k, rfl, hrun⟩ := writtenWithin_node hn hk
      rw [hrun, Arena.writtenNode, Region.name, name_of_isWritable hp, name_of_isWritable hq]
      show Except.ok (String.ofList (charsOf [.cell r.start]) ++ ":" ++
        String.ofList (charsOf [.cell r.finish])) = _
      refine congrArg Except.ok (String.toList_inj.1 ?_)
      simp [Tree.text, Tree.pieces, charsOf_cons, Piece.chars]
  | @binary _ l r op left right hn hl hr hls hrs ihl ihr =>
    cases ht with
    | binary hop hleft hright =>
      obtain ⟨k, rfl, hrun⟩ := writtenWithin_node hn hk
      have hl' := ihl hleft (Nat.lt_of_lt_of_le hl (Nat.le_of_lt_succ hk))
      have hr' := ihr hright (Nat.lt_of_lt_of_le hr (Nat.le_of_lt_succ hk))
      rw [hrun, Arena.writtenNode, hl', hr', brackets_of_spells hop hls hrs hleft hright]
      show Except.ok (bracketed (Tree.brackets op left right).1 left.text ++ " " ++ op.symbol ++
        " " ++ bracketed (Tree.brackets op left right).2 right.text) = _
      refine congrArg Except.ok (String.toList_inj.1 ?_)
      rw [Tree.text, Tree.text, bracketed_ofList, bracketed_ofList, Tree.text, Tree.pieces]
      simp [charsOf_append, charsOf_cons, Piece.chars, Piece.operator]
  | @sign _ o op operand hn ho hos ih =>
    cases ht with
    | sign _ hoperand =>
      obtain ⟨k, rfl, hrun⟩ := writtenWithin_node hn hk
      rw [hrun, Arena.writtenNode, ih hoperand (Nat.lt_of_lt_of_le ho (Nat.le_of_lt_succ hk)),
        isBinary_of_spells hos]
      show Except.ok (op.symbol ++ bracketed operand.isBinary operand.text) = _
      refine congrArg Except.ok (String.toList_inj.1 ?_)
      rw [Tree.text, bracketed_ofList, Tree.text, Tree.pieces]
      simp [charsOf_cons, Piece.chars, Piece.operator]
  | @call _ name ids ts hn hlt hlength hall ih =>
    cases ht with
    | call _ _ harguments =>
      obtain ⟨k, rfl, hrun⟩ := writtenWithin_node hn hk
      have hparts : ∀ x ∈ ids.zip ts, a.writtenWithin k x.1 = .ok x.2.text := by
        intro x hx
        obtain ⟨hi, ht⟩ := List.of_mem_zip hx
        exact ih x hx (harguments _ ht) (Nat.lt_of_lt_of_le (hlt _ hi) (Nat.le_of_lt_succ hk))
      rw [hrun, Arena.writtenNode, mapM_texts hlength hparts]
      show Except.ok (name ++ "(" ++ ", ".intercalate (ts.map Tree.text) ++ ")") = _
      refine congrArg Except.ok (String.toList_inj.1 ?_)
      rw [intercalate_texts, Tree.text, Tree.pieces]
      simp [charsOf_append, charsOf_cons, Piece.chars, Piece.first, Piece.last]

end

end GridCalc
