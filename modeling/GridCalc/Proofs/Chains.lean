import GridCalc.Proofs.Writing

/-!
# Chains of operations

A formula is written with brackets only where the precedence of the operators asks for them, so a
product on the right of a product, or a sum added on the right of a sum, loses its own and is taken
together from the left when it is read. A formula in which nothing of this kind stands on the right
of an operator is straight, and the only ones that stay as they are are the straight ones.
-/

set_option autoImplicit false

namespace GridCalc
open Formula

/-- An operation with the second operator needs no brackets on the right of the first. -/
def Operator.joins (op o : Operator) : Bool :=
  tightSymbols.contains op.symbol && tightSymbols.contains o.symbol ||
    op == .add && looseSymbols.contains o.symbol

theorem Operator.joins_of_tight {symbol : String} (h : symbol ∈ tightSymbols) (o : Operator) :
    (ofSymbol symbol).joins o = tightSymbols.contains o.symbol := by
  simp only [tightSymbols, List.mem_cons, List.not_mem_nil, or_false] at h
  rcases h with rfl | rfl <;> simp [ofSymbol, joins, symbol, tightSymbols]

theorem Operator.joins_add (o : Operator) :
    (ofSymbol "+").joins o = looseSymbols.contains o.symbol := by
  simp [ofSymbol, joins, symbol, tightSymbols]

theorem Operator.joins_subtract (o : Operator) : (ofSymbol "-").joins o = false := by
  simp [ofSymbol, joins, symbol, tightSymbols]

namespace Tree

def joined (op : Operator) (left : Tree) : Tree → Tree
  | binary o a b =>
    if op.joins o then binary o (joined op left a) b else binary op left (binary o a b)
  | t => binary op left t

/-- The formula as it is read once it is written. -/
def regrouped : Tree → Tree
  | number x => number x
  | relative p => relative p
  | absolute p => absolute p
  | region r => region r
  | binary op left right => joined op left.regrouped right.regrouped
  | sign op operand => sign op operand.regrouped
  | call name arguments => call name (arguments.map regrouped)

/-- No operation stands without brackets on the right of another of its precedence. -/
inductive Straight : Tree → Prop
  | number (x : Float) : Straight (.number x)
  | relative (p : Position) : Straight (.relative p)
  | absolute (p : Position) : Straight (.absolute p)
  | region (r : Region) : Straight (.region r)
  | binary {op : Operator} {left right : Tree} : Straight left → Straight right →
      (∀ o a b, right = binary o a b → op.joins o = false) → Straight (.binary op left right)
  | sign {op : Operator} {operand : Tree} : Straight operand → Straight (.sign op operand)
  | call {name : String} {arguments : List Tree} : (∀ t ∈ arguments, Straight t) →
      Straight (.call name arguments)

def operations : Tree → Nat
  | binary _ left right => left.operations + right.operations + 1
  | _ => 0

variable {op : Operator} {left right t : Tree} {symbols : List String}

theorem mem_symbols_exclusive {symbol : String} (h : symbol ∈ tightSymbols) :
    symbol ∉ looseSymbols := by
  have : ∀ symbol ∈ tightSymbols, symbol ∉ looseSymbols := by decide
  exact this symbol h

theorem contains_of_joins {o : Operator} (h : op.joins o)
    (hs : symbols = tightSymbols ∨ symbols = looseSymbols) :
    symbols.contains o.symbol = symbols.contains op.symbol := by
  simp only [Operator.joins, Bool.or_eq_true, Bool.and_eq_true, List.contains_iff_mem,
    beq_iff_eq] at h
  rcases h with ⟨hop, ho⟩ | ⟨rfl, ho⟩
  · have hop' := mem_symbols_exclusive hop
    have ho' := mem_symbols_exclusive ho
    rcases hs with rfl | rfl <;> simp [*]
  · have ho' : o.symbol ∉ tightSymbols := fun h => mem_symbols_exclusive h ho
    rcases hs with rfl | rfl
    · simpa [ho'] using (by decide : Operator.add.symbol ∉ tightSymbols)
    · simpa [ho] using (by decide : Operator.add.symbol ∈ looseSymbols)

theorem joined_of_joins (h : ∀ o, op.joins o = false) (left right : Tree) :
    joined op left right = .binary op left right := by
  unfold joined
  split
  · rw [h, if_neg (by simp)]
  · rfl

theorem isChain_joined (hs : symbols = tightSymbols ∨ symbols = looseSymbols) :
    (joined op left right).isChain symbols = symbols.contains op.symbol := by
  unfold joined
  split
  · split
    · next h => exact contains_of_joins h hs
    · rfl
  · rfl

theorem isChain_regrouped (hs : symbols = tightSymbols ∨ symbols = looseSymbols) (t : Tree) :
    t.regrouped.isChain symbols = t.isChain symbols := by
  cases t <;> simp only [regrouped, isChain]
  exact isChain_joined hs

theorem operations_joined (op : Operator) (left right : Tree) :
    (joined op left right).operations = left.operations + right.operations + 1 := by
  fun_induction joined op left right with
  | case1 o a b _ ih =>
    simp only [operations, ih]
    omega
  | case2 => rfl
  | case3 => simp [operations]

theorem operations_regrouped (t : Tree) : t.regrouped.operations = t.operations := by
  fun_induction regrouped t with
  | case5 op left right ihl ihr => rw [operations_joined, ihl, ihr, operations]
  | _ => rfl

theorem Straight.regrouped (h : t.Straight) : t.regrouped = t := by
  induction h with
  | @binary op left right _ _ hapart ihl ihr =>
    rw [Tree.regrouped, ihl, ihr]
    unfold joined
    split
    · next o a b => rw [hapart _ _ _ rfl, if_neg Bool.false_ne_true]
    · rfl
  | sign _ ih => rw [Tree.regrouped, ih]
  | call _ ih => rw [Tree.regrouped, List.map_congr_left ih, List.map_id']
  | _ => rw [Tree.regrouped]

theorem parts_of_joined (h : joined op left.regrouped right.regrouped = .binary op left right) :
    left.regrouped = left ∧ right.regrouped = right ∧
      ∀ o a b, right = .binary o a b → op.joins o = false := by
  have hsize := operations_regrouped right
  generalize left.regrouped = l at h
  generalize right.regrouped = r at h hsize
  unfold joined at h
  split at h
  · split at h
    -- What is joined keeps only the last part of the right operand, too small for all of it.
    · obtain ⟨-, -, rfl⟩ := Tree.binary.inj h
      simp only [operations] at hsize
      omega
    · next hjoins =>
      obtain ⟨-, rfl, rfl⟩ := Tree.binary.inj h
      refine ⟨rfl, rfl, ?_⟩
      rintro _ _ _ ⟨⟩
      simpa using hjoins
  · next hleaf =>
    obtain ⟨-, rfl, rfl⟩ := Tree.binary.inj h
    exact ⟨rfl, rfl, fun o a b hr => (hleaf o a b hr).elim⟩

theorem straight_of_regrouped (h : t.regrouped = t) : t.Straight := by
  fun_induction regrouped t with
  | case1 x => exact .number x
  | case2 p => exact .relative p
  | case3 p => exact .absolute p
  | case4 r => exact .region r
  | case5 op left right ihl ihr =>
    obtain ⟨hl, hr, hapart⟩ := parts_of_joined h
    exact .binary (ihl hl) (ihr hr) hapart
  | case6 op operand ih => exact .sign (ih (Tree.sign.inj h).2)
  | case7 name arguments ih =>
    have harguments : arguments.map Tree.regrouped = arguments.map id := by
      rw [List.map_id, (Tree.call.inj h).2]
    exact .call fun t ht => ih t ht (List.map_inj_left.1 harguments t ht)

end Tree

end GridCalc
