import GridCalc.Proofs.Arena
import GridCalc.Proofs.Settling

/-!
# Formulas of one tree

A formula stands in an arena for one tree only, and what is worked out for it is worked out for the
tree, with each relative reference followed to where the shift leads from it and each absolute one
to where it leads by itself. So two places that spell the same formula have the same value on every
table, leave the same table behind and report the same events.
-/

set_option autoImplicit false

namespace GridCalc

namespace Arena

variable {a : Arena} {id : NodeId} {t u : Tree}

theorem trees_unique {ids : List NodeId} {ts us : List Tree}
    (hts : ids.length = ts.length) (hus : ids.length = us.length)
    (h : ∀ x ∈ ids.zip ts, ∀ {u}, a.Spells x.1 u → x.2 = u)
    (hu : ∀ x ∈ ids.zip us, a.Spells x.1 x.2) : ts = us := by
  induction ids generalizing ts us with
  | nil =>
    rw [List.eq_nil_of_length_eq_zero hts.symm, List.eq_nil_of_length_eq_zero hus.symm]
  | cons i ids ih =>
    cases ts with
    | nil => cases hts
    | cons t ts =>
      cases us with
      | nil => cases hus
      | cons u us =>
        have hhead : t = u := h (i, t) (by simp) (hu (i, u) (by simp))
        have htail : ts = us := ih (Nat.succ.inj hts) (Nat.succ.inj hus)
          (fun x hx => h x (by simp [hx])) (fun x hx => hu x (by simp [hx]))
        rw [hhead, htail]

theorem Spells.unique (ht : a.Spells id t) (hu : a.Spells id u) : t = u := by
  induction ht generalizing u with
  | number hn => cases hu <;> simp_all
  | relative hn => cases hu <;> simp_all
  | absolute hn => cases hu <;> simp_all
  | region hn => cases hu <;> simp_all
  | binary hn _ _ _ _ ihl ihr =>
    cases hu with
    | binary hn' _ _ hl hr =>
      obtain ⟨rfl, rfl, rfl⟩ := Node.binary.inj (Option.some.inj (hn.symm.trans hn'))
      rw [ihl hl, ihr hr]
    | _ => simp_all
  | sign hn _ _ ih =>
    cases hu with
    | sign hn' _ ho =>
      obtain ⟨rfl, rfl⟩ := Node.sign.inj (Option.some.inj (hn.symm.trans hn'))
      rw [ih ho]
    | _ => simp_all
  | call hn _ hlength _ ih =>
    cases hu with
    | call hn' _ hlength' hall =>
      obtain ⟨rfl, rfl⟩ := Node.call.inj (Option.some.inj (hn.symm.trans hn'))
      rw [trees_unique hlength hlength' ih hall]
    | _ => simp_all

end Arena

def Tree.isRegion : Tree → Bool
  | region _ => true
  | _ => false

theorem Arena.Spells.isRegion {a : Arena} {id : NodeId} {n : Node} {t : Tree}
    (hn : a.node? id = some n) (h : a.Spells id t) : t.isRegion = n.isRegion := by
  cases h <;> simp_all only [Option.some.injEq] <;> subst hn <;> rfl

namespace Evaluation

variable {α β : Type} {a : Arena}

/-- The computations do the same on every table with the given arena, and leave it in place. -/
def Same (a : Arena) (x y : Evaluation α) : Prop :=
  ∀ s, s.grid.arena = a → x s = y s ∧ (y s).2.grid.arena = a

theorem Same.symm {x y : Evaluation α} (h : Same a x y) : Same a y x := fun s hs =>
  ⟨(h s hs).1.symm, (h s hs).1 ▸ (h s hs).2⟩

theorem Same.trans {x y z : Evaluation α} (hx : Same a x y) (hy : Same a y z) : Same a x z :=
  fun s hs => ⟨(hx s hs).1.trans (hy s hs).1, (hy s hs).2⟩

theorem Same.bind {x y : Evaluation α} {f g : α → Evaluation β} (hx : Same a x y)
    (hf : ∀ v, Same a (f v) (g v)) : Same a (x >>= f) (y >>= g) := by
  intro s hs
  obtain ⟨hrun, harena⟩ := hx s hs
  rcases hy : y s with ⟨r, u⟩
  rw [hy] at hrun harena
  cases r with
  | ok v =>
    rw [Action.bind_ok hrun, Action.bind_ok hy]
    exact hf v u harena
  | error e =>
    rw [Action.bind_error hrun, Action.bind_error hy]
    exact ⟨rfl, harena⟩

theorem Same.nested {x y : Evaluation α} (h : Same a x y) : Same a (nested x) (nested y) := by
  intro s hs
  obtain ⟨hrun, harena⟩ :=
    h { s with depth := s.depth + 1, deepest := max s.deepest (s.depth + 1) } hs
  unfold Evaluation.nested
  rw [hrun]
  exact ⟨rfl, harena⟩

theorem same_of_follows {ask : Position → Evaluation Unit} (hask : Asks ask) {x : Evaluation α}
    {q : Grid → Inquiry α} (hx : ∀ g, Follows ask g x (q g)) : Same a x x := by
  intro s hs
  obtain ⟨hrun, -⟩ := hx s.grid s (x s).1 (x s).2 (.refl _) rfl
  exact ⟨rfl, (run_alike hask hrun).arena.trans hs⟩

theorem same_ofExcept (r : Except Stop α) : Same a (Action.ofExcept r) (Action.ofExcept r) :=
  fun _ hs => ⟨rfl, hs⟩

theorem same_fault (f : Fault) : Same a (Action.fault f : Evaluation α) (Action.fault f) :=
  fun _ hs => ⟨rfl, hs⟩

theorem same_pure (v : α) : Same a (pure v) (pure v) := fun _ hs => ⟨rfl, hs⟩

theorem Same.nodeAt {id : NodeId} {n : Node} {f : Node → Evaluation α} {y : Evaluation α}
    (hn : a.node? id = some n) (h : Same a (f n) y) : Same a (nodeAt id >>= f) y := by
  intro s hs
  have hfind : Evaluation.nodeAt id s = (.ok n, s) := by
    rw [Evaluation.nodeAt, hs, Arena.find, hn]
  rw [Action.bind_ok hfind]
  exact h s hs

section

variable (ask : Position → Evaluation Unit) (functions : Functions) (place : Position → Position)

def checkTreeForms (name : String) : Nat → List ArgumentKind → List Tree → Evaluation Unit
  | index, kind :: kinds, t :: ts =>
    if kind = .range ∧ !t.isRegion then Action.fault (.rangeWanted index name)
    else if kind = .scalar ∧ t.isRegion then Action.fault (.rangeUnwanted index name)
    else checkTreeForms name (index + 1) kinds ts
  | _, _, _ => pure ()

def checkTrees (f : Function) (arguments : List Tree) : Evaluation Unit :=
  let name := Text.upper f.name
  if arguments.length ≠ f.arguments.length then
    Action.fault (.argumentCount name f.arguments.length arguments.length)
  else checkTreeForms name 1 f.arguments arguments

mutual

/-- The value of a formula whose relative references lead where `place` takes them. -/
def treeValue (chained : Bool) : Tree → Evaluation Float
  | .number x => nested (pure x)
  | .relative p => nested (reference ask (place p))
  | .absolute p => nested (reference ask p)
  | .region _ => nested (Action.fault .rangeValue)
  | .binary op left right =>
    let steps : Evaluation Float := do
      let x ← treeValue true left
      let y ← treeValue false right
      Action.ofExcept (op.apply x y)
    if chained then steps else nested steps
  | .sign op operand => nested do
    let x ← treeValue false operand
    pure (op.applySign x)
  | .call name arguments => nested do
    let f ← ofFault (functions.find name)
    checkTrees f arguments
    let xs ← treeArguments arguments
    Action.ofExcept (f.rule.apply xs)

def treeArguments : List Tree → Evaluation (List Argument)
  | [] => pure []
  | .region r :: ts => do
    let xs ← regionValues ask ⟨place r.start, place r.finish⟩
    let rest ← treeArguments ts
    pure (.range xs :: rest)
  | t :: ts => do
    let x ← treeValue false t
    let rest ← treeArguments ts
    pure (.scalar x :: rest)

end

end

section

variable {ask : Position → Evaluation Unit} {functions : Functions} {shift : Position}

def SpellsAll (a : Arena) (ids : List NodeId) (ts : List Tree) : Prop :=
  ids.length = ts.length ∧ ∀ x ∈ ids.zip ts, a.Spells x.1 x.2

theorem SpellsAll.cons {id : NodeId} {ids : List NodeId} {t : Tree} {ts : List Tree}
    (h : SpellsAll a (id :: ids) (t :: ts)) : a.Spells id t ∧ SpellsAll a ids ts :=
  ⟨h.2 (id, t) (by simp), Nat.succ.inj h.1, fun x hx => h.2 x (by simp [hx])⟩

theorem checkForms_trees (name : String) {kinds : List ArgumentKind} {index : Nat}
    {ids : List NodeId} {ts : List Tree} (h : SpellsAll a ids ts) :
    Same a (checkForms name index kinds ids) (checkTreeForms name index kinds ts) := by
  induction kinds generalizing index ids ts with
  | nil => exact same_pure ()
  | cons kind kinds ih =>
    cases ts with
    | nil =>
      obtain rfl := List.eq_nil_of_length_eq_zero h.1
      exact same_pure ()
    | cons t ts =>
      obtain ⟨id, ids, rfl⟩ := List.exists_cons_of_length_eq_add_one h.1
      obtain ⟨hid, hrest⟩ := h.cons
      obtain ⟨n, -, hn⟩ := Arena.find_of_lt hid.lt_size
      unfold checkForms checkTreeForms
      refine Same.nodeAt hn ?_
      rw [hid.isRegion hn]
      split
      · exact same_fault _
      · split
        · exact same_fault _
        · exact ih hrest

theorem checkArguments_trees (f : Function) {ids : List NodeId} {ts : List Tree}
    (h : SpellsAll a ids ts) : Same a (checkArguments f ids) (checkTrees f ts) := by
  unfold checkArguments checkTrees
  rw [h.1]
  dsimp only
  split
  · exact same_fault _
  · exact checkForms_trees _ h

theorem argumentValues_trees (hask : Asks ask) {part : NodeId → Evaluation Float}
    {ids : List NodeId} {ts : List Tree} (h : SpellsAll a ids ts)
    (hpart : ∀ x ∈ ids.zip ts,
      Same a (part x.1) (treeValue ask functions (·.shift shift) false x.2)) :
    Same a (argumentValues ask shift part ids)
      (treeArguments ask functions (·.shift shift) ts) := by
  induction ts generalizing ids with
  | nil =>
    obtain rfl := List.eq_nil_of_length_eq_zero h.1
    rw [treeArguments]
    exact same_pure []
  | cons t ts ih =>
    obtain ⟨id, ids, rfl⟩ := List.exists_cons_of_length_eq_add_one h.1
    obtain ⟨hid, hrest⟩ := h.cons
    have htail := ih hrest fun x hx => hpart x (by simp [hx])
    have hscalar : Same a (do
        let x ← part id
        let rest ← argumentValues ask shift part ids
        pure (.scalar x :: rest)) (do
        let x ← treeValue ask functions (·.shift shift) false t
        let rest ← treeArguments ask functions (·.shift shift) ts
        pure (.scalar x :: rest)) :=
      (hpart (id, t) (by simp)).bind fun x => htail.bind fun rest => same_pure _
    unfold argumentValues
    cases hid with
    | region hn =>
      exact Same.nodeAt hn <|
        (same_of_follows hask fun g => follows_regionValues hask _).bind fun xs =>
          htail.bind fun rest => same_pure _
    | number hn => exact Same.nodeAt hn hscalar
    | relative hn => exact Same.nodeAt hn hscalar
    | absolute hn => exact Same.nodeAt hn hscalar
    | binary hn => exact Same.nodeAt hn hscalar
    | sign hn => exact Same.nodeAt hn hscalar
    | call hn => exact Same.nodeAt hn hscalar

theorem Same.level {id : NodeId} {n : Node} {k : Nat} {chained : Bool} {y : Evaluation Float}
    (hn : a.node? id = some n) (hk : id < k)
    (h : ∀ l, k = l + 1 →
      Same a (nodeValue ask functions shift (valueWithin ask functions shift l) chained n) y) :
    Same a (valueWithin ask functions shift k chained id) y := by
  obtain ⟨l, rfl⟩ := Nat.exists_eq_succ_of_ne_zero (Nat.ne_zero_of_lt hk)
  exact Same.nodeAt hn (h l rfl)

theorem valueWithin_tree (hask : Asks ask) {id : NodeId} {t : Tree} (h : a.Spells id t) {k : Nat}
    (hk : id < k) (chained : Bool) :
    Same a (valueWithin ask functions shift k chained id)
      (treeValue ask functions (·.shift shift) chained t) := by
  have hreference : ∀ p, Same a (nested (reference ask p)) (nested (reference ask p)) := fun p =>
    (same_of_follows hask fun g => follows_reference hask p).nested
  induction h generalizing k chained with
  | number hn =>
    rw [treeValue]
    exact Same.level hn hk fun _ _ => (same_pure _).nested
  | relative hn =>
    rw [treeValue]
    exact Same.level hn hk fun _ _ => hreference _
  | absolute hn =>
    rw [treeValue]
    exact Same.level hn hk fun _ _ => hreference _
  | region hn =>
    rw [treeValue]
    exact Same.level hn hk fun _ _ => (same_fault _).nested
  | @binary id l r op left right hn hl hr _ _ ihl ihr =>
    rw [treeValue]
    refine Same.level hn hk ?_
    rintro k rfl
    have hsteps := (ihl (Nat.lt_of_lt_of_le hl (Nat.le_of_lt_succ hk)) true).bind fun x =>
      (ihr (Nat.lt_of_lt_of_le hr (Nat.le_of_lt_succ hk)) false).bind fun y =>
        same_ofExcept (op.apply x y)
    unfold nodeValue
    dsimp only
    split
    · exact hsteps
    · exact hsteps.nested
  | sign hn ho _ ih =>
    rw [treeValue]
    refine Same.level hn hk ?_
    rintro k rfl
    have hoperand := ih (Nat.lt_of_lt_of_le ho (Nat.le_of_lt_succ hk)) false
    exact (hoperand.bind fun x => same_pure _).nested
  | @call id name ids ts hn hlt hlength hall ih =>
    rw [treeValue]
    refine Same.level hn hk ?_
    rintro k rfl
    have hspells : SpellsAll a ids ts := ⟨hlength, hall⟩
    have hparts : ∀ x ∈ ids.zip ts, Same a (valueWithin ask functions shift k false x.1)
        (treeValue ask functions (·.shift shift) false x.2) := fun x hx =>
      ih x hx (Nat.lt_of_lt_of_le (hlt _ (List.of_mem_zip hx).1) (Nat.le_of_lt_succ hk)) false
    have hfind : Same a (ofFault (functions.find name)) (ofFault (functions.find name)) :=
      same_of_follows hask fun g => follows_findFunction functions name
    exact (hfind.bind fun f => (checkArguments_trees f hspells).bind fun _ =>
      (argumentValues_trees hask hspells hparts).bind fun xs => same_ofExcept _).nested

theorem rootValue_tree (hask : Asks ask) {id : NodeId} {t : Tree} (h : a.Spells id t) :
    Same a (rootValue ask functions shift id)
      (treeValue ask functions (·.shift shift) false t) := by
  intro s hs
  unfold rootValue
  rw [hs]
  exact valueWithin_tree hask h (Nat.lt_succ_of_lt h.lt_size) false s hs

/-- Two places that spell one formula have one value. -/
theorem rootValue_same (hask : Asks ask) {i j : NodeId} {t : Tree} (hi : a.Spells i t)
    (hj : a.Spells j t) :
    Same a (rootValue ask functions shift i) (rootValue ask functions shift j) :=
  (rootValue_tree hask hi).trans (rootValue_tree hask hj).symm

end

end Evaluation

end GridCalc
