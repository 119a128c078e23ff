import GridCalc.Proofs.Passage

/-!
# Computations at different depths

How many levels are under way is looked at in one place only: from the limit on, no further cell is
begun. So of two runs of what is worked out on the same table, the one with fewer levels under way
comes to what the other comes to, value or fault, and leaves the same table, unless the other one
stops at a cell that is out of its reach.
-/

set_option autoImplicit false

namespace GridCalc

namespace Progress

theorem mark_eq (s : Progress) (p : Position) (phase : Phase) :
    s.mark p phase = { s with grid := s.grid.set p { s.grid.cellAt p with phase } } := by
  by_cases hp : s.grid.contains p
  · rw [mark, Grid.cell?_of_contains hp]
    rfl
  · rw [mark, Grid.cell?, if_neg hp, Grid.set_of_not_contains hp]

theorem release_eq (s : Progress) (p : Position) :
    s.release p = { s with grid := s.grid.released p } := by
  unfold release Grid.released
  by_cases ha : s.grid.phase p = .active
  · rw [if_pos (isActive_iff.2 ha), if_pos ha, mark_eq]
  · rw [if_neg (fun h => ha (isActive_iff.1 h)), if_neg ha]

theorem finish_eq (s : Progress) (p : Position) (c : Cell) :
    s.finish p c = { s with grid := s.grid.finished p c } := by
  unfold finish Grid.finished
  by_cases ha : s.grid.phase p = .active
  · rw [if_pos (isActive_iff.2 ha), if_pos ha]
    rfl
  · rw [if_neg (fun h => ha (isActive_iff.1 h)), if_neg ha]

end Progress

namespace Evaluation

/-- What it means that a computation stops because a cell of the table is out of reach. -/
structure Loss where
  holds : Grid → Stop → Prop
  alike : ∀ {g h e}, g.Alike h → holds h e → holds g e
  /-- A fault would be shown by the cell that asks. -/
  fault : ∀ g f, ¬ holds g (.fault f)

variable {α β : Type} {L : Loss} {a : Arena} {s s' : Progress}

/-- The states differ in their levels alone, and the first has no more of them under way. -/
structure Above (a : Arena) (s s' : Progress) : Prop where
  grid : s.grid = s'.grid
  log : s.log = s'.log
  depth : s.depth ≤ s'.depth
  arena : s'.grid.arena = a

/-- What two computations have come to from two states is the same but for the levels, which are
again those from before. -/
structure Agreed (s s' : Progress) (u u' : Except Stop α × Progress) : Prop where
  result : u.1 = u'.1
  grid : u.2.grid = u'.2.grid
  log : u.2.log = u'.2.log
  upper : u.2.depth = s.depth
  lower : u'.2.depth = s'.depth
  alike : s'.grid.Alike u'.2.grid

def Loss.Avoids (L : Loss) (g : Grid) (r : Except Stop α) : Prop :=
  ∀ e, r = .error e → ¬ L.holds g e

/-- The first computation agrees with the second if that is not begun with fewer levels under way
and reaches all cells that it comes to. -/
def Shadows (L : Loss) (a : Arena) (x y : Evaluation α) : Prop :=
  ∀ s s', Above a s s' → L.Avoids s'.grid (y s').1 → Agreed s s' (x s) (y s')

theorem Agreed.above {u u' : Except Stop α × Progress} (h : Agreed s s' u u') (hs : Above a s s') :
    Above a u.2 u'.2 :=
  ⟨h.grid, h.log, by rw [h.upper, h.lower]; exact hs.depth, h.alike.arena.trans hs.arena⟩

theorem Agreed.trans {u u' : Except Stop α × Progress} {v v' : Except Stop β × Progress}
    (hu : Agreed s s' u u') (hv : Agreed u.2 u'.2 v v') : Agreed s s' v v' :=
  ⟨hv.result, hv.grid, hv.log, hv.upper.trans hu.upper, hv.lower.trans hu.lower,
    hu.alike.trans hv.alike⟩

theorem Agreed.rest {u u' : Except Stop α × Progress} (h : Agreed s s' u u') (r : Except Stop β) :
    Agreed s s' (r, u.2) (r, u'.2) :=
  ⟨rfl, h.grid, h.log, h.upper, h.lower, h.alike⟩

theorem shadows_reads (f : Grid → Except Stop α) :
    Shadows L a (fun s => (f s.grid, s)) (fun s => (f s.grid, s)) := fun _ s' hs _ =>
  ⟨congrArg f hs.grid, hs.grid, hs.log, rfl, rfl, .refl s'.grid⟩

theorem Above.writes (hs : Above a s s') {f : Grid → Grid} (hf : ∀ g : Grid, g.Alike (f g)) :
    Agreed s s' (.ok (), { s with grid := f s.grid }) (.ok (), { s' with grid := f s'.grid }) :=
  ⟨rfl, congrArg f hs.grid, hs.log, rfl, rfl, hf s'.grid⟩

theorem Above.put (hs : Above a s s') (p : Position) (c : Cell) :
    Agreed s s' (.ok (), s.put p c) (.ok (), s'.put p c) :=
  hs.writes (f := (·.set p c)) fun g => Grid.alike_set g p c

theorem Above.mark (hs : Above a s s') (p : Position) (phase : Phase) :
    Agreed s s' (.ok (), s.mark p phase) (.ok (), s'.mark p phase) := by
  rw [s.mark_eq, s'.mark_eq]
  exact hs.writes (f := fun g => g.set p { g.cellAt p with phase }) fun g => Grid.alike_set g p _

theorem Above.release (hs : Above a s s') (p : Position) :
    Agreed s s' (.ok (), s.release p) (.ok (), s'.release p) := by
  rw [s.release_eq, s'.release_eq]
  exact hs.writes fun g => (Grid.alikeOff_released g p).alike

theorem Above.finish (hs : Above a s s') (p : Position) (c : Cell) :
    Agreed s s' (.ok (), s.finish p c) (.ok (), s'.finish p c) := by
  rw [s.finish_eq, s'.finish_eq]
  exact hs.writes fun g => (Grid.alikeOff_finished g p c).alike

theorem shadows_pure (v : α) : Shadows L a (pure v) (pure v) := shadows_reads fun _ => .ok v

theorem shadows_fault (f : Fault) : Shadows L a (Action.fault f : Evaluation α) (Action.fault f) :=
  shadows_reads fun _ => .error (.fault f)

theorem shadows_breakdown (b : Breakdown) :
    Shadows L a (Action.breakdown b : Evaluation α) (Action.breakdown b) :=
  shadows_reads fun _ => .error (.breakdown b)

theorem shadows_ofExcept (r : Except Stop α) :
    Shadows L a (Action.ofExcept r) (Action.ofExcept r) := shadows_reads fun _ => r

theorem shadows_ofBreakdown (x : Except Breakdown α) :
    Shadows L a (ofBreakdown x) (ofBreakdown x) := by
  cases x with
  | ok v => exact shadows_pure v
  | error b => exact shadows_breakdown b

theorem shadows_ofFault (x : Except Fault α) : Shadows L a (ofFault x) (ofFault x) := by
  cases x with
  | ok v => exact shadows_pure v
  | error f => exact shadows_fault f

theorem shadows_cellAt (p : Position) : Shadows L a (cellAt p) (cellAt p) :=
  shadows_reads fun g => .ok (g.cellAt p)

theorem shadows_isActive (p : Position) : Shadows L a (isActive p) (isActive p) :=
  shadows_reads fun g => .ok (Progress.isActive { grid := g } p)

theorem shadows_containsRegion (r : Region) : Shadows L a (containsRegion r) (containsRegion r) :=
  shadows_reads fun g => .ok (decide (g.contains r.start ∧ g.contains r.finish))

theorem shadows_note (e : Event) : Shadows L a (note e) (note e) := fun _ s' hs _ =>
  ⟨rfl, hs.grid, congrArg (·.push e) hs.log, rfl, rfl, .refl s'.grid⟩

theorem shadows_put (p : Position) (c : Cell) :
    Shadows L a (Action.modify (·.put p c)) (Action.modify (·.put p c)) := fun _ _ hs _ =>
  hs.put p c

theorem shadows_mark (p : Position) (phase : Phase) :
    Shadows L a (Action.modify (·.mark p phase)) (Action.modify (·.mark p phase)) := fun _ _ hs _ =>
  hs.mark p phase

variable {x y : Evaluation α} {f g : α → Evaluation β}

theorem Loss.Avoids.of_alike {g h : Grid} {r : Except Stop α} (hg : g.Alike h)
    (hr : L.Avoids g r) : L.Avoids h r := fun e he hh => hr e he (L.alike hg hh)

theorem Shadows.bind (hx : Shadows L a x y) (hf : ∀ v, Shadows L a (f v) (g v)) :
    Shadows L a (x >>= f) (y >>= g) := by
  intro s s' hs havoids
  have hrun := hx s s' hs
  rcases hu : x s with ⟨r, u⟩
  rcases hu' : y s' with ⟨r', u'⟩
  rw [hu, hu'] at hrun
  cases r' with
  | ok v =>
    have hagreed := hrun nofun
    obtain rfl : r = .ok v := hagreed.result
    rw [Action.bind_ok hu'] at havoids
    rw [Action.bind_ok hu, Action.bind_ok hu']
    exact hagreed.trans (hf v u u' (hagreed.above hs) (havoids.of_alike hagreed.alike))
  | error e =>
    rw [Action.bind_error hu'] at havoids
    have hagreed := hrun fun e' he => havoids e' (by cases he; rfl)
    obtain rfl : r = .error e := hagreed.result
    rw [Action.bind_error hu, Action.bind_error hu']
    exact hagreed.rest (.error e)

theorem Above.deeper (hs : Above a s s') : Above a s.deeper s'.deeper :=
  ⟨hs.grid, hs.log, Nat.succ_le_succ hs.depth, hs.arena⟩

theorem Above.right (hs : Above a s s') : Above a s s'.deeper :=
  ⟨hs.grid, hs.log, Nat.le_succ_of_le hs.depth, hs.arena⟩

theorem Shadows.nested (h : Shadows L a x y) : Shadows L a (nested x) (nested y) := by
  intro s s' hs havoids
  have hagreed := h s.deeper s'.deeper hs.deeper havoids
  exact ⟨hagreed.result, hagreed.grid, hagreed.log, congrArg (· - 1) hagreed.upper,
    congrArg (· - 1) hagreed.lower, hagreed.alike⟩

/-- A level of its own for the second computation only makes it reach less. -/
theorem Shadows.nested_right (h : Shadows L a x y) : Shadows L a x (Evaluation.nested y) := by
  intro s s' hs havoids
  have hagreed := h s s'.deeper hs.right havoids
  exact ⟨hagreed.result, hagreed.grid, hagreed.log, hagreed.upper,
    congrArg (· - 1) hagreed.lower, hagreed.alike⟩

theorem Shadows.congr {x' y' : Evaluation α} (h : Shadows L a x y)
    (hx : ∀ s, s.grid.arena = a → x' s = x s) (hy : ∀ s, s.grid.arena = a → y' s = y s) :
    Shadows L a x' y' := by
  intro s s' hs havoids
  have harena : s.grid.arena = a := by rw [hs.grid, hs.arena]
  rw [hy s' hs.arena] at havoids
  rw [hx s harena, hy s' hs.arena]
  exact h s s' hs havoids

theorem nodeAt_bind {f : Node → Evaluation β} {id : NodeId} {n : Node} (hn : a.node? id = some n)
    (hs : s.grid.arena = a) : (nodeAt id >>= f) s = f n s := by
  have hfind : nodeAt id s = (.ok n, s) := by rw [nodeAt, hs, Arena.find, hn]
  rw [Action.bind_ok hfind]

theorem nodeAt_bind_none {f : Node → Evaluation β} {id : NodeId} (hn : a.node? id = none)
    (hs : s.grid.arena = a) :
    (nodeAt id >>= f) s = Action.breakdown (.unknownNode id) s := by
  have hfind : nodeAt id s = (.error (.breakdown (.unknownNode id)), s) := by
    rw [nodeAt, hs, Arena.find, hn]
  rw [Action.bind_error hfind]
  rfl

theorem Shadows.nodeAt {f g : Node → Evaluation β} {id : NodeId}
    (h : ∀ n, a.node? id = some n → Shadows L a (f n) (g n)) :
    Shadows L a (nodeAt id >>= f) (nodeAt id >>= g) := by
  cases hn : a.node? id with
  | some n => exact (h n hn).congr (fun s => nodeAt_bind hn) fun s => nodeAt_bind hn
  | none =>
    exact (shadows_breakdown (.unknownNode id)).congr (fun s => nodeAt_bind_none hn)
      fun s => nodeAt_bind_none hn

theorem shadows_operand (p : Position) (c : Cell) : Shadows L a (operand p c) (operand p c) := by
  have hunsettled : Shadows L a (do
      let name ← ofBreakdown p.name
      (Action.fault (.unsettled name) : Evaluation Float)) (do
      let name ← ofBreakdown p.name
      (Action.fault (.unsettled name) : Evaluation Float)) :=
    (shadows_ofBreakdown p.name).bind fun name => shadows_fault (.unsettled name)
  unfold operand
  cases c.content with
  | number x => exact shadows_pure x
  | formula _ _ x =>
    dsimp only
    split
    · exact shadows_pure x
    · exact hunsettled
  | empty => exact shadows_pure 0.0
  | text => exact shadows_fault .textOperand
  | separator => exact shadows_fault .separatorOperand
  | error f => exact shadows_fault f
  | clone => exact hunsettled

theorem shadows_checkForms (name : String) (index : Nat) (kinds : List ArgumentKind)
    (ids : List NodeId) :
    Shadows L a (checkForms name index kinds ids) (checkForms name index kinds ids) := by
  induction kinds generalizing index ids with
  | nil => exact shadows_pure ()
  | cons kind kinds ih =>
    cases ids with
    | nil => exact shadows_pure ()
    | cons id ids =>
      refine Shadows.nodeAt fun n _ => ?_
      split
      · exact shadows_fault _
      · split
        · exact shadows_fault _
        · exact ih (index + 1) ids

theorem shadows_checkArguments (f : Function) (arguments : List NodeId) :
    Shadows L a (checkArguments f arguments) (checkArguments f arguments) := by
  unfold checkArguments
  dsimp only
  split
  · exact shadows_fault _
  · exact shadows_checkForms _ _ _ _

section

variable {ask ask' : Position → Evaluation Unit} {functions : Functions} {shift : Position}

theorem shadows_reference (hask : ∀ p, Shadows L a (ask p) (ask' p)) (p : Position) :
    Shadows L a (reference ask p) (reference ask' p) :=
  (hask p).bind fun _ => (shadows_cellAt p).bind fun c => shadows_operand p c

theorem shadows_memberValues (hask : ∀ p, Shadows L a (ask p) (ask' p)) (r : Region)
    (ps : List Position) : Shadows L a (memberValues ask r ps) (memberValues ask' r ps) := by
  induction ps with
  | nil => exact shadows_pure []
  | cons p ps ih =>
    have hrest : ∀ x : Float, Shadows L a
        (do let xs ← memberValues ask r ps; pure (x :: xs))
        (do let xs ← memberValues ask' r ps; pure (x :: xs)) :=
      fun x => ih.bind fun xs => shadows_pure (x :: xs)
    refine (hask p).bind fun _ => (shadows_cellAt p).bind fun c => ?_
    dsimp only
    split
    · exact hrest _
    · split
      · refine (shadows_ofBreakdown p.name).bind fun name => ?_
        refine (shadows_ofBreakdown r.name).bind fun region => ?_
        exact (shadows_note _).bind fun _ => hrest 0.0
      · exact hrest 0.0

theorem shadows_regionValues (hask : ∀ p, Shadows L a (ask p) (ask' p)) (r : Region) :
    Shadows L a (regionValues ask r) (regionValues ask' r) := by
  refine (shadows_containsRegion r).bind fun inside => ?_
  split
  · exact shadows_memberValues hask r r.positions
  · exact (shadows_ofBreakdown r.name).bind fun region => shadows_fault (.regionOutside region)

theorem shadows_argumentValues (hask : ∀ p, Shadows L a (ask p) (ask' p))
    {part part' : NodeId → Evaluation Float} {ids : List NodeId}
    (hpart : ∀ id ∈ ids, Shadows L a (part id) (part' id)) :
    Shadows L a (argumentValues ask shift part ids) (argumentValues ask' shift part' ids) := by
  induction ids with
  | nil => exact shadows_pure []
  | cons id ids ih =>
    have hids := ih fun i hi => hpart i (List.mem_cons_of_mem id hi)
    have hrest : ∀ x : Argument, Shadows L a
        (do let rest ← argumentValues ask shift part ids; pure (x :: rest))
        (do let rest ← argumentValues ask' shift part' ids; pure (x :: rest)) :=
      fun x => hids.bind fun rest => shadows_pure (x :: rest)
    refine Shadows.nodeAt fun n _ => ?_
    cases n with
    | region r => exact (shadows_regionValues hask _).bind fun xs => hrest _
    | _ => exact (hpart id List.mem_cons_self).bind fun x => hrest _

theorem shadows_nodeValue (hask : ∀ p, Shadows L a (ask p) (ask' p))
    {part : Bool → NodeId → Evaluation Float} {part' : NodeId → Evaluation Float} {n : Node}
    (hpart : ∀ chained, ∀ i ∈ n.children, Shadows L a (part chained i) (part' i)) (chained : Bool) :
    Shadows L a (nodeValue ask functions shift part chained n)
      (nodeValue ask' functions shift (fun _ => part') false n) := by
  cases n with
  | number x => exact (shadows_pure x).nested
  | relative p => exact (shadows_reference hask _).nested
  | absolute p => exact (shadows_reference hask p).nested
  | region r => exact (shadows_fault .rangeValue).nested
  | binary op left right =>
    have hsteps := (hpart true left (by simp [Node.children])).bind fun x =>
      (hpart false right (by simp [Node.children])).bind fun y => shadows_ofExcept (op.apply x y)
    cases chained with
    | true => exact hsteps.nested_right
    | false => exact hsteps.nested
  | sign op operand =>
    exact ((hpart false operand (by simp [Node.children])).bind fun x => shadows_pure _).nested
  | call name arguments =>
    refine Shadows.nested ((shadows_ofFault (functions.find name)).bind fun f => ?_)
    refine (shadows_checkArguments f arguments).bind fun _ => ?_
    exact (shadows_argumentValues hask (hpart false)).bind fun xs => shadows_ofExcept _

end

theorem Shadows.attempt {x y : Evaluation Unit} (p : Position) (h : Shadows L a x y) :
    Shadows L a (attempt p x) (attempt p y) := by
  -- The cell is given up if what it needs lies too deep.
  intro s s' hs havoids
  have hmark := hs.mark p .active
  have hrun := h.nested (s.mark p .active) (s'.mark p .active) (hmark.above hs)
  unfold Evaluation.attempt at havoids ⊢
  rcases hu : Evaluation.nested x (s.mark p .active) with ⟨r, u⟩
  rcases hu' : Evaluation.nested y (s'.mark p .active) with ⟨r', u'⟩
  rw [hu, hu'] at hrun
  rw [hu'] at havoids
  cases r' with
  | ok v =>
    have hagreed := hrun nofun
    obtain rfl : r = .ok v := hagreed.result
    exact hmark.trans hagreed
  | error e =>
    have hagreed := hrun (Loss.Avoids.of_alike hmark.alike fun e' he => havoids e' (by
      cases he
      cases e <;> rfl))
    obtain rfl : r = .error e := hagreed.result
    have hafter := hmark.trans hagreed
    cases e with
    | tooDeep q name => exact (hafter.trans ((hafter.above hs).release p)).rest _
    | fault f => exact hafter
    | breakdown b => exact hafter

theorem Shadows.settles {x y : Evaluation Float} (h : Shadows L a x y) (p : Position)
    (root : NodeId) (shift : Position) :
    Shadows L a
      (fun s => match x s with
        | (.ok v, t) => (.ok (), t.finish p ⟨.formula root shift v, .done⟩)
        | (.error (.fault f), t) => (.ok (), t.finish p (.ofFault f))
        | (.error e, t) => (.error e, t))
      (fun s => match y s with
        | (.ok v, t) => (.ok (), t.finish p ⟨.formula root shift v, .done⟩)
        | (.error (.fault f), t) => (.ok (), t.finish p (.ofFault f))
        | (.error e, t) => (.error e, t)) := by
  intro s s' hs havoids
  have hrun := h s s' hs
  dsimp only at havoids ⊢
  rcases hu : x s with ⟨r, u⟩
  rcases hu' : y s' with ⟨r', u'⟩
  rw [hu, hu'] at hrun
  rw [hu'] at havoids
  cases r' with
  | ok v =>
    have hagreed := hrun nofun
    obtain rfl : r = .ok v := hagreed.result
    exact hagreed.trans ((hagreed.above hs).finish p _)
  | error e =>
    have hagreed := hrun (by
      rintro _ ⟨⟩
      cases e with
      | fault f => exact L.fault s'.grid f
      | tooDeep q name => exact havoids _ rfl
      | breakdown b => exact havoids _ rfl)
    obtain rfl : r = .error e := hagreed.result
    cases e with
    | fault f => exact hagreed.trans ((hagreed.above hs).finish p _)
    | tooDeep q name => exact hagreed.rest _
    | breakdown b => exact hagreed.rest _

end Evaluation

end GridCalc
