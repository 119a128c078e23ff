import GridCalc.Grid.Reading
import GridCalc.Proofs.Shadowing

/-!
# Chains of operations

A long sum nests to the left, and its left operands count as no levels of their own: the operations
are collected on the way down to the first operand and applied on the way back. Worked out plainly,
one level deeper for each operand, the same formula comes to a cell that is out of reach sooner,
and so does every formula that it asks for. But a cell that is begun at some depth is begun at
every smaller one; so as long as the plain way reaches all cells it comes to, all ways come to the
same, error for error and cell for cell.
-/

set_option autoImplicit false

namespace GridCalc

namespace Arena

def Ordered (a : Arena) : Prop := ∀ id n, a.node? id = some n → ∀ i ∈ n.children, i < id

/-- The first operand of a chain of operations and the operations on it, the innermost first, found
by going down from one left operand to the next. -/
def spine (a : Arena) : Nat → NodeId → List (Operator × NodeId) →
    Except Breakdown (NodeId × List (Operator × NodeId))
  | 0, _, _ => .error .endlessFormula
  | levels + 1, id, chain =>
    match a.find id with
    | .error b => .error b
    | .ok (.binary op left right) => a.spine levels left ((op, right) :: chain)
    | .ok _ => .ok (id, chain)

theorem spine_binary {a : Arena} {id left right : NodeId} {op : Operator}
    (hn : a.node? id = some (.binary op left right)) (levels : Nat)
    (chain : List (Operator × NodeId)) :
    a.spine (levels + 1) id chain = a.spine levels left ((op, right) :: chain) := by
  rw [spine, find, hn]

theorem spine_append (a : Arena) (levels : Nat) (id : NodeId)
    (chain rest : List (Operator × NodeId)) :
    a.spine levels id (chain ++ rest) =
      (a.spine levels id chain).map fun x => (x.1, x.2 ++ rest) := by
  induction levels generalizing id chain with
  | zero => rfl
  | succ levels ih =>
    unfold spine
    cases a.find id with
    | error b => rfl
    | ok n =>
      cases n with
      | binary op left right => exact ih left ((op, right) :: chain)
      | _ => rfl

end Arena

namespace Evaluation

section

variable (ask : Position → Evaluation Unit) (functions : Functions) (shift : Position)

def plainWithin : Nat → NodeId → Evaluation Float
  | 0, _ => Action.breakdown .endlessFormula
  | levels + 1, id => do
    let n ← nodeAt id
    nodeValue ask functions shift (fun _ => plainWithin levels) false n

def plainValue (root : NodeId) : Evaluation Float := fun s =>
  plainWithin ask functions shift s.grid.arena.levels root s

def spineAt (levels : Nat) (id : NodeId) (chain : List (Operator × NodeId)) :
    Evaluation (NodeId × List (Operator × NodeId)) := fun s =>
  (match s.grid.arena.spine levels id chain with
    | .ok x => .ok x
    | .error b => .error (.breakdown b), s)

def applyAll (part : NodeId → Evaluation Float) :
    Float → List (Operator × NodeId) → Evaluation Float
  | x, [] => pure x
  | x, (op, right) :: chain => do
    let y ← part right
    let z ← Action.ofExcept (op.apply x y)
    applyAll part z chain

/-- The value of a left operand with the operations of a chain on it: those further down are
collected, then the first operand is worked out and all are applied. -/
def chainValue (part : NodeId → Evaluation Float) (levels : Nat) (left : NodeId)
    (chain : List (Operator × NodeId)) : Evaluation Float := do
  let (first, chain) ← spineAt levels left chain
  let x ← part first
  applyAll part x chain

def loopedWithin : Nat → NodeId → Evaluation Float
  | 0, _ => Action.breakdown .endlessFormula
  | levels + 1, id => do
    match ← nodeAt id with
    | .binary op left right =>
      nested (chainValue (loopedWithin levels) levels left [(op, right)])
    | n => nodeValue ask functions shift (fun _ => loopedWithin levels) false n

def loopedValue (root : NodeId) : Evaluation Float := fun s =>
  loopedWithin ask functions shift s.grid.arena.levels root s

end

def Manner.looped : Manner := ⟨loopedValue, outOfReach⟩

def Manner.plainly (far : Position → Evaluation Unit) : Manner := ⟨plainValue, far⟩

def Manner.plain : Manner := .plainly outOfReach

def Manner.unnamed : Manner := .plainly fun p => Action.stop (.tooDeep p "")

section

variable {L : Loss} {a : Arena} {ask ask' : Position → Evaluation Unit} {functions : Functions}
  {shift : Position}

/-- On tables with the given arena, the values are those of formulas that are worked out plainly. -/
def Manner.Reckons (L : Loss) (a : Arena) (m : Manner) : Prop :=
  ∀ {ask ask' : Position → Evaluation Unit} {functions : Functions} {shift : Position},
    (∀ p, Shadows L a (ask p) (ask' p)) → ∀ root,
      Shadows L a (m.value ask functions shift root) (plainValue ask' functions shift root)

theorem shadows_levels (value : Nat → NodeId → Evaluation Float) {id : NodeId}
    (h : Shadows L a (value a.levels id) (plainWithin ask' functions shift a.levels id)) :
    Shadows L a (fun s => value s.grid.arena.levels id s) (plainValue ask' functions shift id) :=
  h.congr (fun s hs => by rw [hs]) fun s hs => by rw [plainValue, hs]

theorem valueWithin_shadows (hask : ∀ p, Shadows L a (ask p) (ask' p)) (levels : Nat)
    (chained : Bool) (id : NodeId) :
    Shadows L a (valueWithin ask functions shift levels chained id)
      (plainWithin ask' functions shift levels id) := by
  induction levels generalizing chained id with
  | zero => exact shadows_breakdown .endlessFormula
  | succ levels ih =>
    exact Shadows.nodeAt fun n _ => shadows_nodeValue hask (fun chained i _ => ih chained i) chained

theorem plainWithin_shadows (hask : ∀ p, Shadows L a (ask p) (ask' p)) (levels : Nat)
    (id : NodeId) :
    Shadows L a (plainWithin ask functions shift levels id)
      (plainWithin ask' functions shift levels id) := by
  induction levels generalizing id with
  | zero => exact shadows_breakdown .endlessFormula
  | succ levels ih =>
    exact Shadows.nodeAt fun n _ => shadows_nodeValue hask (fun _ i _ => ih i) false

theorem chained_reckons (a : Arena) : Manner.chained.Reckons L a := fun hask root =>
  shadows_levels (valueWithin _ _ _ · false ·)
    (valueWithin_shadows hask a.levels false root)

theorem plain_reckons (a : Arena) : Manner.plain.Reckons L a := fun hask root =>
  shadows_levels (plainWithin _ _ _) (plainWithin_shadows hask a.levels root)

variable {part : NodeId → Evaluation Float}

theorem applyAll_append (x : Float) (chain rest : List (Operator × NodeId)) :
    applyAll part x (chain ++ rest) =
      (applyAll part x chain >>= fun z => applyAll part z rest) := by
  induction chain generalizing x with
  | nil => rfl
  | cons step chain ih =>
    obtain ⟨op, right⟩ := step
    simp only [List.cons_append, applyAll, ih, bind_assoc]

theorem chainValue_append (levels : Nat) (left : NodeId) (chain rest : List (Operator × NodeId)) :
    chainValue part levels left (chain ++ rest) =
      (chainValue part levels left chain >>= fun x => applyAll part x rest) := by
  unfold chainValue
  rw [bind_assoc]
  funext s
  cases hspine : s.grid.arena.spine levels left chain with
  | ok x =>
    have hshort : spineAt levels left chain s = (.ok x, s) := by rw [spineAt, hspine]
    have hlong : spineAt levels left (chain ++ rest) s = (.ok (x.1, x.2 ++ rest), s) := by
      rw [spineAt, Arena.spine_append, hspine]
      rfl
    rw [Action.bind_ok hshort, Action.bind_ok hlong]
    simp only [bind_assoc, applyAll_append]
  | error b =>
    have hshort : spineAt levels left chain s = (.error (.breakdown b), s) := by
      rw [spineAt, hspine]
    have hlong : spineAt levels left (chain ++ rest) s = (.error (.breakdown b), s) := by
      rw [spineAt, Arena.spine_append, hspine]
      rfl
    rw [Action.bind_error hshort, Action.bind_error hlong]

theorem chainValue_binary {op : Operator} {left right id : NodeId}
    (hn : a.node? id = some (.binary op left right)) (levels : Nat) {s : Progress}
    (hs : s.grid.arena = a) :
    chainValue part (levels + 1) id [] s =
      (chainValue part levels left [] >>= fun x => applyAll part x [(op, right)]) s := by
  have hspine : spineAt (levels + 1) id [] s = spineAt levels left [(op, right)] s := by
    rw [spineAt, spineAt, hs, Arena.spine_binary hn]
  rw [← chainValue_append, List.nil_append]
  unfold chainValue
  show Action.bind _ _ s = Action.bind _ _ s
  rw [Action.bind, Action.bind, hspine]

theorem chainValue_first {n : Node} {id : NodeId} (hn : a.node? id = some n)
    (hop : ∀ op left right, n ≠ .binary op left right) (levels : Nat) {s : Progress}
    (hs : s.grid.arena = a) : chainValue part (levels + 1) id [] s = part id s := by
  have hspine : spineAt (levels + 1) id [] s = (.ok (id, []), s) := by
    unfold spineAt Arena.spine
    rw [hs, Arena.find, hn]
    cases n with
    | binary op left right => exact absurd rfl (hop op left right)
    | _ => rfl
  unfold chainValue
  rw [Action.bind_ok hspine]
  exact congrFun (bind_pure (part id)) s

theorem chain_shadows {op : Operator} {left right : NodeId} {x : Evaluation Float}
    {part' : NodeId → Evaluation Float} (hleft : Shadows L a x (part' left))
    (hright : Shadows L a (part right) (part' right)) :
    Shadows L a (x >>= fun v => applyAll part v [(op, right)]) (do
      let v ← part' left
      let y ← part' right
      Action.ofExcept (op.apply v y)) := by
  refine hleft.bind fun v => hright.bind fun y => ?_
  show Shadows L a (Action.ofExcept (op.apply v y) >>= fun z => pure z) _
  rw [bind_pure]
  exact shadows_ofExcept (op.apply v y)

/-- At a place, the loop goes the plain way with any numbers of levels and steps that suffice, both
for the formula and for the left operand of an operation. -/
def Loops (L : Loss) (a : Arena) (ask ask' : Position → Evaluation Unit) (functions : Functions)
    (shift : Position) (id : NodeId) : Prop :=
  ∀ k k' : Nat, id < k → id < k' →
    Shadows L a (loopedWithin ask functions shift k id) (plainWithin ask' functions shift k' id) ∧
      ∀ steps, id < steps →
        Shadows L a (chainValue (loopedWithin ask functions shift k) steps id [])
          (plainWithin ask' functions shift k' id)

theorem plainWithin_succ {n : Node} {id : NodeId} (hn : a.node? id = some n) (k : Nat)
    {s : Progress} (hs : s.grid.arena = a) :
    plainWithin ask functions shift (k + 1) id s =
      nodeValue ask functions shift (fun _ => plainWithin ask functions shift k) false n s :=
  nodeAt_bind hn hs

theorem loops_binary {op : Operator} {id left right : NodeId}
    (hn : a.node? id = some (.binary op left right)) (hleft : left < id) (hright : right < id)
    (hl : Loops L a ask ask' functions shift left) (hr : Loops L a ask ask' functions shift right) :
    Loops L a ask ask' functions shift id := by
  intro k k' hk hk'
  obtain ⟨k', rfl⟩ := Nat.exists_eq_succ_of_ne_zero (Nat.ne_zero_of_lt hk')
  have hid : id ≤ k' := Nat.le_of_lt_succ hk'
  have hpart : ∀ k steps, id ≤ k → left < steps → Shadows L a
      (chainValue (loopedWithin ask functions shift k) steps left [] >>= fun v =>
        applyAll (loopedWithin ask functions shift k) v [(op, right)]) (do
      let v ← plainWithin ask' functions shift k' left
      let y ← plainWithin ask' functions shift k' right
      Action.ofExcept (op.apply v y)) := fun k steps hk hsteps =>
    chain_shadows
      ((hl k k' (Nat.lt_of_lt_of_le hleft hk) (Nat.lt_of_lt_of_le hleft hid)).2 steps hsteps)
      (hr k k' (Nat.lt_of_lt_of_le hright hk) (Nat.lt_of_lt_of_le hright hid)).1
  refine ⟨?_, fun steps hsteps => ?_⟩
  · obtain ⟨k, rfl⟩ := Nat.exists_eq_succ_of_ne_zero (Nat.ne_zero_of_lt hk)
    have hk := Nat.le_of_lt_succ hk
    refine (hpart k k hk (Nat.lt_of_lt_of_le hleft hk)).nested.congr (fun s hs => ?_)
      fun s => plainWithin_succ hn k'
    rw [← chainValue_append, List.nil_append]
    exact nodeAt_bind hn hs
  · obtain ⟨steps, rfl⟩ := Nat.exists_eq_succ_of_ne_zero (Nat.ne_zero_of_lt hsteps)
    have hsteps := Nat.lt_of_lt_of_le hleft (Nat.le_of_lt_succ hsteps)
    exact (hpart k steps (Nat.le_of_lt hk) hsteps).nested_right.congr
      (fun s => chainValue_binary hn steps) fun s => plainWithin_succ hn k'

theorem loops_other (hask : ∀ p, Shadows L a (ask p) (ask' p)) {n : Node} {id : NodeId}
    (hn : a.node? id = some n) (hop : ∀ op left right, n ≠ .binary op left right)
    (hlt : ∀ i ∈ n.children, i < id)
    (hparts : ∀ i ∈ n.children, Loops L a ask ask' functions shift i) :
    Loops L a ask ask' functions shift id := by
  intro k k' hk hk'
  obtain ⟨k, rfl⟩ := Nat.exists_eq_succ_of_ne_zero (Nat.ne_zero_of_lt hk)
  obtain ⟨k', rfl⟩ := Nat.exists_eq_succ_of_ne_zero (Nat.ne_zero_of_lt hk')
  have hvalue : Shadows L a (loopedWithin ask functions shift (k + 1) id)
      (plainWithin ask' functions shift (k' + 1) id) := by
    have hnode : Shadows L a
        (nodeValue ask functions shift (fun _ => loopedWithin ask functions shift k) false n)
        (nodeValue ask' functions shift (fun _ => plainWithin ask' functions shift k') false n) :=
      shadows_nodeValue hask (fun _ i hi =>
        (hparts i hi k k' (Nat.lt_of_lt_of_le (hlt i hi) (Nat.le_of_lt_succ hk))
          (Nat.lt_of_lt_of_le (hlt i hi) (Nat.le_of_lt_succ hk'))).1) false
    refine hnode.congr (fun s hs => ?_) fun s => plainWithin_succ hn k'
    rw [loopedWithin, nodeAt_bind hn hs]
    cases n with
    | binary op left right => exact absurd rfl (hop op left right)
    | _ => rfl
  refine ⟨hvalue, fun steps hsteps => ?_⟩
  obtain ⟨steps, rfl⟩ := Nat.exists_eq_succ_of_ne_zero (Nat.ne_zero_of_lt hsteps)
  exact hvalue.congr (fun s => chainValue_first hn hop steps) fun _ _ => rfl

theorem loops_of_ordered (ha : a.Ordered) (hask : ∀ p, Shadows L a (ask p) (ask' p)) {id : NodeId}
    (hid : id < a.size) : Loops L a ask ask' functions shift id := by
  -- What a node refers to stands before it.
  induction id using Nat.strongRecOn with
  | ind id ih =>
    obtain ⟨n, -, hn⟩ := Arena.find_of_lt hid
    have hlt := ha id n hn
    have hparts : ∀ i ∈ n.children, Loops L a ask ask' functions shift i := fun i hi =>
      ih i (hlt i hi) (Nat.lt_trans (hlt i hi) hid)
    cases n with
    | binary op left right =>
      have hleft : left ∈ (Node.binary op left right).children := by simp [Node.children]
      have hright : right ∈ (Node.binary op left right).children := by simp [Node.children]
      exact loops_binary hn (hlt left hleft) (hlt right hright) (hparts left hleft)
        (hparts right hright)
    | _ => exact loops_other hask hn (by simp) hlt hparts

theorem looped_reckons (ha : a.Ordered) : Manner.looped.Reckons L a := by
  intro ask ask' functions shift hask root
  refine shadows_levels (loopedWithin ask functions shift) ?_
  by_cases hroot : root < a.size
  · have hlevels : root < a.levels := Nat.lt_succ_of_lt hroot
    exact (loops_of_ordered ha hask hroot a.levels a.levels hlevels hlevels).1
  · -- there is no node, which both ways notice at once
    have hn : a.node? root = none := Array.getElem?_eq_none (Nat.le_of_not_lt hroot)
    exact (shadows_breakdown (.unknownNode root)).congr (fun s => nodeAt_bind_none hn)
      fun s => nodeAt_bind_none hn

end

section

variable {L : Loss} {a : Arena} {m : Manner} {ctx : Context} {ask ask' : Position → Evaluation Unit}
  {far : Position → Evaluation Unit}

def Loses (L : Loss) (far : Position → Evaluation Unit) : Prop :=
  ∀ p s, s.grid.contains p → ∃ e, (far p s).1 = .error e ∧ L.holds s.grid e

theorem settleFormulaBy_shadows (hm : m.Reckons L a) (hask : ∀ p, Shadows L a (ask p) (ask' p))
    (p : Position) (root : NodeId) (shift : Position) :
    Shadows L a (settleFormulaBy m ctx ask p root shift)
      (settleFormulaBy (.plainly far) ctx ask' p root shift) :=
  ((hm hask root).settles p root shift).attempt p

theorem settleCloneBy_shadows (hm : m.Reckons L a) (hask : ∀ p, Shadows L a (ask p) (ask' p))
    (p : Position) (d : Direction) (offset : Int) :
    Shadows L a (settleCloneBy m ctx ask p d offset)
      (settleCloneBy (.plainly far) ctx ask' p d offset) := by
  refine Shadows.attempt p ((hask _).bind fun _ => (shadows_isActive p).bind fun active => ?_)
  split
  · refine (shadows_cellAt _).bind fun seen => ?_
    dsimp only
    refine (shadows_ofBreakdown p.name).bind fun name => ?_
    refine (shadows_ofBreakdown (p.move d offset).name).bind fun source => ?_
    refine (shadows_note _).bind fun _ => ?_
    cases (seen.cloned d offset).content with
    | formula root shift x =>
      exact (shadows_put p _).bind fun _ => settleFormulaBy_shadows hm hask p root shift
    | _ => exact shadows_put p _
  · exact shadows_pure ()

theorem settleStepBy_shadows (hm : m.Reckons L a) (hfar : Loses L far)
    {deeper deeper' : Option (Position → Evaluation Unit)}
    (hdeeper : deeper' = none ∨ ∃ ask ask', deeper = some ask ∧ deeper' = some ask' ∧
      ∀ p, Shadows L a (ask p) (ask' p)) (p : Position) :
    Shadows L a (settleStepBy m ctx deeper p) (settleStepBy (.plainly far) ctx deeper' p) := by
  intro s s' hs havoids
  have hget : ∀ t : Progress, (Action.get : Evaluation Progress) t = (.ok t, t) := fun _ => rfl
  unfold settleStepBy at havoids ⊢
  rw [Action.bind_ok (hget s')] at havoids
  rw [Action.bind_ok (hget s), Action.bind_ok (hget s'), hs.grid]
  cases hc : s'.grid.cell? p with
  | none => exact shadows_pure (L := L) () s s' hs (by rintro _ ⟨⟩)
  | some c =>
    -- from the cell on, both look at the same
    have hlost : ¬ L.Avoids s'.grid (far p s').1 := fun h => by
      obtain ⟨e, he, hholds⟩ := hfar p s' (Grid.contains_iff_isSome.2 (by rw [hc]; rfl))
      exact h e he hholds
    rw [hc] at havoids
    dsimp only at havoids ⊢
    cases hphase : c.phase with
    | done => exact shadows_pure (L := L) () s s' hs (by rintro _ ⟨⟩)
    | active =>
      rw [hphase] at havoids
      exact ((shadows_ofBreakdown p.name).bind fun name =>
        (shadows_note (.cycle name)).bind fun _ => shadows_put p (.ofFault .loop)) s s' hs havoids
    | pending =>
      rw [hphase] at havoids
      dsimp only at havoids ⊢
      by_cases hdef : c.content.isDeferred
      · have hnot : ¬ (!c.content.isDeferred) = true := by simp [hdef]
        rw [if_neg hnot] at havoids
        rw [if_neg hnot, if_neg hnot]
        by_cases hlimit : ctx.limit ≤ s'.depth
        · rw [if_pos hlimit] at havoids
          exact absurd havoids hlost
        · have hlimit' : ¬ ctx.limit ≤ s.depth := fun h => hlimit (Nat.le_trans h hs.depth)
          rw [if_neg hlimit] at havoids
          rw [if_neg hlimit, if_neg hlimit']
          obtain rfl | ⟨ask, ask', rfl, rfl, hask⟩ := hdeeper
          · exact absurd havoids hlost
          · cases hcontent : c.content with
            | formula root shift x =>
              rw [hcontent] at havoids
              exact settleFormulaBy_shadows hm hask p root shift s s' hs havoids
            | clone d offset =>
              rw [hcontent] at havoids
              exact settleCloneBy_shadows hm hask p d offset s s' hs havoids
            | _ =>
              rw [hcontent] at hdef
              cases hdef
      · have hliteral : (!c.content.isDeferred) = true := by simp [hdef]
        rw [if_pos hliteral, if_pos hliteral]
        exact shadows_mark (L := L) p .done s s' hs (by rintro _ ⟨⟩)

theorem settleWithinBy_shadows (hm : m.Reckons L a) (hfar : Loses L far) (levels : Nat)
    (p : Position) :
    Shadows L a (settleWithinBy m ctx levels p) (settleWithinBy (.plainly far) ctx levels p) := by
  induction levels generalizing p with
  | zero => exact settleStepBy_shadows hm hfar (.inl rfl) p
  | succ levels ih => exact settleStepBy_shadows hm hfar (.inr ⟨_, _, rfl, rfl, ih⟩) p

/-- From the same state, a manner comes to what the plain way comes to that reaches all cells. -/
theorem valueBy_agrees {root : NodeId} {shift : Position} {s t : Progress} {r : Except Stop Float}
    (hm : m.Reckons L s.grid.arena) (hfar : Loses L far)
    (h : valueBy (.plainly far) ctx root shift s = (r, t)) (hr : L.Avoids s.grid r) :
    ∃ u, valueBy m ctx root shift s = (r, u) ∧ u.grid = t.grid ∧ u.log = t.log := by
  have hshadows : Shadows L s.grid.arena (valueBy m ctx root shift)
      (valueBy (.plainly far) ctx root shift) :=
    hm (settleWithinBy_shadows hm hfar ctx.limit) root
  have hagreed := hshadows s s ⟨rfl, rfl, Nat.le_refl _, rfl⟩ (by rwa [h])
  rw [h] at hagreed
  exact ⟨(valueBy m ctx root shift s).2, Prod.ext hagreed.result rfl, hagreed.grid, hagreed.log⟩

end

def Loss.deep : Loss where
  holds _ e := e.IsDeep
  alike _ h := h
  fault _ _ h := h

def Loss.unreached : Loss where
  holds g e := e.IsDeep ∨ ∃ p b, g.contains p ∧ p.name = .error b ∧ e = .breakdown b
  alike hg h := h.imp_right fun ⟨p, b, hp, hname, he⟩ => ⟨p, b, hg.contains.1 hp, hname, he⟩
  fault _ _ h := h.elim id fun ⟨_, _, _, _, he⟩ => by cases he

theorem loses_unnamed : Loses .deep fun p => Action.stop (.tooDeep p "") := fun _ _ _ =>
  ⟨_, rfl, trivial⟩

theorem loses_outOfReach : Loses .unreached outOfReach := by
  intro p s hp
  unfold outOfReach
  cases hname : p.name with
  | ok name => exact ⟨_, rfl, .inl trivial⟩
  | error b => exact ⟨_, rfl, .inr ⟨p, b, hp, hname, rfl⟩⟩

/-- As long as the plain way of working out a formula reaches all cells that it comes to, the
formula has the same value or fault in every manner, and all leave the same table and report the
same events. The plain way reaches them all if it comes to no cell that lies too deep; where it
breaks down over the name of a column of the table, that must not be for such a cell. -/
theorem formulaValue_folds (ctx : Context) (root : NodeId) (shift : Position) {s t : Progress}
    {r : Except Stop Float} (ha : s.grid.arena.Ordered)
    (h : valueBy .plain ctx root shift s = (r, t)) (hr : Shallow r)
    (hnamed : (∀ p b, s.grid.contains p → p.name = .error b → r ≠ .error (.breakdown b)) ∨
      Shallow (valueBy .unnamed ctx root shift s).1) :
    (∃ u, formulaValue ctx root shift s = (r, u) ∧ u.grid = t.grid ∧ u.log = t.log) ∧
      ∃ u, valueBy .looped ctx root shift s = (r, u) ∧ u.grid = t.grid ∧ u.log = t.log := by
  obtain hnamed | hnamed := hnamed
  · have havoids : Loss.unreached.Avoids s.grid r := by
      rintro e he (hdeep | ⟨p, b, hp, hname, rfl⟩)
      · exact hr e he hdeep
      · exact hnamed p b hp hname he
    exact ⟨valueBy_agrees (chained_reckons _) loses_outOfReach h havoids,
      valueBy_agrees (looped_reckons ha) loses_outOfReach h havoids⟩
  · have hrun : valueBy .unnamed ctx root shift s = (_, _) := rfl
    obtain ⟨u, hu, hgrid, hlog⟩ := valueBy_agrees (plain_reckons _) loses_unnamed hrun hnamed
    obtain ⟨rfl, rfl⟩ := Prod.mk.inj (h.symm.trans hu)
    rw [hgrid, hlog]
    exact ⟨valueBy_agrees (chained_reckons _) loses_unnamed hrun hnamed,
      valueBy_agrees (looped_reckons ha) loses_unnamed hrun hnamed⟩

def chainOnText : Grid :=
  ⟨1, 3, #v[#v[⟨.formula 4 .origin 0.0, .pending⟩, ⟨.formula 5 .origin 0.0, .pending⟩,
      ⟨.text "x", .pending⟩]],
    ⟨#[.relative ⟨0, 1⟩, .number 1.0, .binary .subtract 0 1, .relative ⟨0, 1⟩, .binary .add 2 3,
      .relative ⟨0, 2⟩]⟩⟩

theorem formulaValue_folds_text :
    Grid.ofText "=B1-1+B1|=C1|x" = .ok (chainOnText, #[]) ∧ chainOnText.arena.Ordered ∧
      (valueBy .plain ⟨4, .builtin⟩ 4 .origin { grid := chainOnText }).1 =
        .error (.fault .textOperand) ∧
      (∃ u, formulaValue ⟨4, .builtin⟩ 4 .origin { grid := chainOnText } =
          (.error (.fault .textOperand), u) ∧
        u.grid.cell? ⟨0, 1⟩ = some (.ofFault .textOperand)) ∧
      (formulaValue ⟨3, .builtin⟩ 4 .origin { grid := chainOnText }).1 =
        .error (.fault .textOperand) ∧
      (valueBy .plain ⟨3, .builtin⟩ 4 .origin { grid := chainOnText }).1 =
        .error (.tooDeep ⟨0, 1⟩ "B1") := by
  have hread : Grid.ofText "=B1-1+B1|=C1|x" = .ok (chainOnText, #[]) :=
    ok_of_toOption (by decide +kernel)
  have hordered : chainOnText.arena.Ordered := by
    have hall : ∀ id < 6, ∀ n ∈ chainOnText.arena.node? id, ∀ i ∈ n.children, i < id := by
      decide +kernel
    exact fun id n hn => hall id (Arena.lt_size_of_node hn) n hn
  have hvalue : (valueBy .plain ⟨4, .builtin⟩ 4 .origin { grid := chainOnText }).1 =
      .error (.fault .textOperand) := by decide +kernel
  obtain ⟨⟨u, hu, hgrid, -⟩, -⟩ := formulaValue_folds ⟨4, .builtin⟩ 4 .origin
    (s := { grid := chainOnText }) hordered (Prod.ext hvalue rfl) (shallow_fault .textOperand)
    (.inl fun _ _ _ _ => by simp)
  refine ⟨hread, hordered, hvalue, ⟨u, hu, ?_⟩, by decide +kernel, by decide +kernel⟩
  rw [hgrid]
  decide +kernel

/-! Past the last column that has a name, the plain way breaks down where it would say which cell is
out of its reach. -/

def chainTo (p : Position) : Arena :=
  ⟨#[.relative p, .number 1.0, .binary .add 0 1, .binary .add 2 1, .number 7.0]⟩

section

variable {g : Grid} {p : Position}

theorem plain_chainTo {b : Breakdown}
    (hcell : g.cell? p = some ⟨.formula 4 .origin 0.0, .pending⟩) (harena : g.arena = chainTo p)
    (hname : p.name = .error b) :
    (valueBy .plain ⟨3, .builtin⟩ 3 .origin { grid := g }).1 = .error (.breakdown b) := by
  simp [valueBy, Manner.plain, Manner.plainly, plainValue, plainWithin, nodeValue, nodeAt,
    Arena.levels, Arena.size, Arena.find, Arena.node?, chainTo, harena, nested, reference,
    Bind.bind, Action.bind, Action.get, Position.shift_origin, settleWithinBy, settleStepBy, hcell,
    Content.isDeferred, outOfReach, hname, ofBreakdown, Action.breakdown, Action.stop]

theorem formulaValue_chainTo (hcell : g.cell? p = some ⟨.formula 4 .origin 0.0, .pending⟩)
    (harena : g.arena = chainTo p) :
    (formulaValue ⟨3, .builtin⟩ 3 .origin { grid := g }).1 = .ok (7.0 + 1.0 + 1.0) := by
  have hin : g.contains p := Grid.contains_iff_isSome.2 (by rw [hcell]; rfl)
  simp [formulaValue, valueBy, rootValue, valueWithin, nodeValue, nodeAt, Arena.levels, Arena.size,
    Arena.find, Arena.node?, chainTo, harena, nested, reference, Bind.bind, Action.bind, Action.get,
    pure, Action.pure, Position.shift_origin, settleWithinBy, settleStepBy, hcell,
    Content.isDeferred, settleFormulaBy, attempt, Progress.mark, Progress.put, Progress.finish,
    Progress.isActive, Grid.cell?_set_self, Grid.contains_set, hin, Grid.arena_set, cellAt,
    Grid.cellAt, operand, Action.ofExcept, Operator.apply]

end

def lastColumn (columns : Nat) : Grid :=
  let p : Position := ⟨0, columns - 1⟩
  (Grid.ofCells 1 columns [] (chainTo p)).set p ⟨.formula 4 .origin 0.0, .pending⟩

/-- The plain way does not end at a cell out of its reach, and yet not as the other ways do. -/
theorem formulaValue_folds_unnamed :
    (lastColumn 18279).arena.Ordered ∧
      (valueBy .plain ⟨3, .builtin⟩ 3 .origin { grid := lastColumn 18279 }).1 =
        .error (.breakdown (.columnIndex 18279)) ∧
      (formulaValue ⟨3, .builtin⟩ 3 .origin { grid := lastColumn 18279 }).1 =
        .ok (7.0 + 1.0 + 1.0) := by
  have harena : (lastColumn 18279).arena = chainTo ⟨0, 18278⟩ := Grid.arena_set _ _ _
  have hcell : (lastColumn 18279).cell? ⟨0, 18278⟩ = some ⟨.formula 4 .origin 0.0, .pending⟩ :=
    Grid.cell?_set_self (by decide)
  refine ⟨?_, plain_chainTo hcell harena (by decide), formulaValue_chainTo hcell harena⟩
  rw [harena]
  have hall : ∀ id < 5, ∀ n ∈ (chainTo ⟨0, 18278⟩).node? id, ∀ i ∈ n.children, i < id := by
    decide +kernel
  exact fun id n hn => hall id (Arena.lt_size_of_node hn) n hn

end Evaluation

end GridCalc
