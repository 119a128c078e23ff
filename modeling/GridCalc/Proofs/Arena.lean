import GridCalc.Formula.Node

/-!
# Arenas that formulas are kept in

A formula is a tree, and an arena spells it if its nodes stand there, the parts of each before it.
An arena is only ever added to, so a formula that has been spelled remains. Every arena that has
been filled by adding sound nodes is well formed: from any place in it only smaller places are
reached, and a region is nothing but an argument of a function.
-/

set_option autoImplicit false

namespace GridCalc

def Operator.IsArithmetic (op : Operator) : Prop := ∀ symbol, op ≠ other symbol

theorem Operator.isArithmetic_of_mem {symbol : String} (h : symbol ∈ ["+", "-", "*", "/"]) :
    (ofSymbol symbol).IsArithmetic := by
  simp only [List.mem_cons, List.not_mem_nil, or_false] at h
  rcases h with rfl | rfl | rfl | rfl <;> simp [ofSymbol, IsArithmetic]

theorem Operator.symbol_ofSymbol (s : String) : (ofSymbol s).symbol = s := by
  unfold ofSymbol
  split <;> rfl

def Node.children : Node → List NodeId
  | binary _ left right => [left, right]
  | sign _ operand => [operand]
  | call _ arguments => arguments
  | _ => []

/-- A formula apart from the places of its nodes. -/
inductive Tree where
  | number (x : Float)
  | relative (p : Position)
  | absolute (p : Position)
  | region (r : Region)
  | binary (op : Operator) (left right : Tree)
  | sign (op : Operator) (operand : Tree)
  | call (name : String) (arguments : List Tree)

namespace Tree

def IsRegion (t : Tree) : Prop := ∃ r, t = region r

end Tree

namespace Arena

structure Grows (a b : Arena) : Prop where
  size : a.size ≤ b.size
  node : ∀ {id n}, a.node? id = some n → b.node? id = some n

def RegionAt (a : Arena) (id : NodeId) : Prop := ∃ r, a.node? id = some (.region r)

/-- What a node may refer to if it stands at the given place. -/
def Sound (a : Arena) (id : NodeId) : Node → Prop
  | .binary op left right => op.IsArithmetic ∧ left < id ∧ right < id ∧
      ¬ a.RegionAt left ∧ ¬ a.RegionAt right
  | .sign _ operand => operand < id ∧ ¬ a.RegionAt operand
  | .call _ arguments => ∀ o ∈ arguments, o < id
  | _ => True

def WellFormed (a : Arena) : Prop := ∀ id n, a.node? id = some n → a.Sound id n

/-- The formula stands in the arena with its root at the given place. -/
inductive Spells (a : Arena) : NodeId → Tree → Prop
  | number {id : NodeId} {x : Float} : a.node? id = some (.number x) → Spells a id (.number x)
  | relative {id : NodeId} {p : Position} : a.node? id = some (.relative p) →
      Spells a id (.relative p)
  | absolute {id : NodeId} {p : Position} : a.node? id = some (.absolute p) →
      Spells a id (.absolute p)
  | region {id : NodeId} {r : Region} : a.node? id = some (.region r) → Spells a id (.region r)
  | binary {id l r : NodeId} {op : Operator} {left right : Tree} :
      a.node? id = some (.binary op l r) → l < id → r < id → Spells a l left →
      Spells a r right → Spells a id (.binary op left right)
  | sign {id o : NodeId} {op : Operator} {operand : Tree} : a.node? id = some (.sign op o) →
      o < id → Spells a o operand → Spells a id (.sign op operand)
  | call {id : NodeId} {name : String} {ids : List NodeId} {trees : List Tree} :
      a.node? id = some (.call name ids) → (∀ i ∈ ids, i < id) → ids.length = trees.length →
      (∀ x ∈ ids.zip trees, Spells a x.1 x.2) → Spells a id (.call name trees)

variable {a b c : Arena} {id : NodeId} {n : Node} {t : Tree}

theorem lt_size_of_node (h : a.node? id = some n) : id < a.size := by
  obtain ⟨hlt, _⟩ := Array.getElem?_eq_some_iff.1 h
  exact hlt

theorem find_of_lt (h : id < a.size) : ∃ n, a.find id = .ok n ∧ a.node? id = some n := by
  have hn : a.node? id = some a.nodes[id] := Array.getElem?_eq_getElem h
  exact ⟨_, by rw [find, hn], hn⟩

theorem Grows.refl (a : Arena) : a.Grows a := ⟨Nat.le_refl _, id⟩

theorem Grows.trans (hb : a.Grows b) (hc : b.Grows c) : a.Grows c :=
  ⟨Nat.le_trans hb.size hc.size, fun h => hc.node (hb.node h)⟩

theorem grows_add (a : Arena) (n : Node) : a.Grows (a.add n) :=
  ⟨by rw [size_add]; omega, fun h => (node?_add_of_lt n (lt_size_of_node h)).trans h⟩

theorem Grows.regionAt (h : a.Grows b) (hid : id < a.size) : b.RegionAt id ↔ a.RegionAt id := by
  obtain ⟨n, _, hn⟩ := find_of_lt hid
  simp only [RegionAt, h.node hn, hn]

theorem Spells.lt_size (h : a.Spells id t) : id < a.size := by
  cases h with
  | number hn => exact lt_size_of_node hn
  | relative hn => exact lt_size_of_node hn
  | absolute hn => exact lt_size_of_node hn
  | region hn => exact lt_size_of_node hn
  | binary hn => exact lt_size_of_node hn
  | sign hn => exact lt_size_of_node hn
  | call hn => exact lt_size_of_node hn

theorem lt_size_of_mem {ids : List NodeId} {trees : List Tree} (hlength : ids.length = trees.length)
    (h : ∀ x ∈ ids.zip trees, a.Spells x.1 x.2) : ∀ i ∈ ids, i < a.size := by
  intro i hi
  rw [← List.map_fst_zip (Nat.le_of_eq hlength)] at hi
  obtain ⟨x, hx, rfl⟩ := List.mem_map.1 hi
  exact (h x hx).lt_size

theorem Spells.grows (hb : a.Grows b) (h : a.Spells id t) : b.Spells id t := by
  induction h with
  | number hn => exact .number (hb.node hn)
  | relative hn => exact .relative (hb.node hn)
  | absolute hn => exact .absolute (hb.node hn)
  | region hn => exact .region (hb.node hn)
  | binary hn hl hr _ _ ihl ihr => exact .binary (hb.node hn) hl hr ihl ihr
  | sign hn ho _ ih => exact .sign (hb.node hn) ho ih
  | call hn hi hlen _ ih => exact .call (hb.node hn) hi hlen ih

section

variable {l r : NodeId} {left right : Tree} {op : Operator}

theorem Spells.add_binary (hl : a.Spells l left) (hr : a.Spells r right) :
    (a.add (.binary op l r)).Spells a.size (.binary op left right) :=
  .binary (a.node?_add_size _) hl.lt_size hr.lt_size (hl.grows (a.grows_add _))
    (hr.grows (a.grows_add _))

theorem Spells.add_sign (hl : a.Spells l left) :
    (a.add (.sign op l)).Spells a.size (.sign op left) :=
  .sign (a.node?_add_size _) hl.lt_size (hl.grows (a.grows_add _))

theorem spells_add_call {name : String} {ids : List NodeId} {trees : List Tree}
    (hlength : ids.length = trees.length) (h : ∀ x ∈ ids.zip trees, a.Spells x.1 x.2) :
    (a.add (.call name ids)).Spells a.size (.call name trees) :=
  .call (a.node?_add_size _) (lt_size_of_mem hlength h) hlength fun x hx =>
    (h x hx).grows (a.grows_add _)

end

theorem Spells.regionAt (h : a.Spells id t) : a.RegionAt id ↔ t.IsRegion := by
  cases h <;> simp_all [RegionAt, Tree.IsRegion]

theorem WellFormed.add (ha : a.WellFormed) (hn : a.Sound a.size n) : (a.add n).WellFormed := by
  have hregion : ∀ {o}, o < a.size → ¬ a.RegionAt o → ¬ (a.add n).RegionAt o :=
    fun ho hr h => hr (((grows_add a n).regionAt ho).1 h)
  have hsound : ∀ {id m}, id ≤ a.size → a.Sound id m → (a.add n).Sound id m := by
    intro id m hid hm
    cases m with
    | binary op l r =>
      obtain ⟨hop, hl, hr, hnl, hnr⟩ := hm
      exact ⟨hop, hl, hr, hregion (Nat.lt_of_lt_of_le hl hid) hnl,
        hregion (Nat.lt_of_lt_of_le hr hid) hnr⟩
    | sign op o => exact ⟨hm.1, hregion (Nat.lt_of_lt_of_le hm.1 hid) hm.2⟩
    | _ => exact hm
  intro id m hm
  have hlt := lt_size_of_node hm
  rw [size_add] at hlt
  by_cases hid : id < a.size
  · rw [node?_add_of_lt n hid] at hm
    exact hsound (Nat.le_of_lt hid) (ha id m hm)
  · obtain rfl : id = a.size := Nat.le_antisymm (Nat.le_of_lt_succ hlt) (Nat.le_of_not_lt hid)
    rw [node?_add_size] at hm
    cases hm
    exact hsound (Nat.le_refl _) hn

theorem wellFormed_empty : empty.WellFormed := by
  intro id n h
  simp [node?, empty] at h

end Arena

end GridCalc
