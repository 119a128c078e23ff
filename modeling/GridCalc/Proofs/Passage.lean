import GridCalc.Proofs.Arena
import GridCalc.Proofs.Restart

/-!
# Passages

What evaluation does to the state is made of little: a level is counted while a part of a formula is
worked out, events are noted, cells are begun and given up, settled or replaced by what they clone,
and loops are broken. A relation between the state before and the state after that these keep, and
that composes, is kept by the whole, whether it ends with a value or stops. The relation may speak
of the number of levels that are needed, and how a cell may be replaced is left to it.
-/

set_option autoImplicit false

namespace GridCalc

theorem Cell.phase_cloned {c : Cell} {d : Direction} {offset : Int} {root : NodeId}
    {shift : Position} {x : Float} (h : (c.cloned d offset).content = .formula root shift x) :
    (c.cloned d offset).phase = .pending := by
  obtain ⟨_, _, _, -, hsame⟩ | ⟨hne, hsame⟩ := c.cloned_cases d offset
  · rw [hsame]
  · exact absurd (hsame ▸ h) (hne root shift x)

namespace Progress

def deeper (s : Progress) : Progress :=
  { s with depth := s.depth + 1, deepest := max s.deepest (s.depth + 1) }

def shallower (s : Progress) : Progress := { s with depth := s.depth - 1 }

end Progress

namespace Evaluation

variable {α β : Type}

/-- A relation for each number of levels that composes and that is kept by what changes no content:
counting levels, noting events other than loops, and setting the phase of a cell that is not done.
-/
structure Passage (R : Nat → Progress → Progress → Prop) : Prop where
  refl : ∀ n s, R n s s
  trans : ∀ {n s t u}, R n s t → R n t u → R n s u
  mono : ∀ {m n s t}, m ≤ n → R m s t → R n s t
  level : ∀ {n s t}, R n s.deeper t → R (n + 1) s t.shallower
  note : ∀ n s e, (∀ name, e ≠ .cycle name) → R n s (s.note e)
  mark : ∀ n s p phase, s.grid.phase p ≠ .done → R n s (s.mark p phase)

/-- However the computation ends, the relation holds between the states before and after it. -/
def Passes (R : Progress → Progress → Prop) (x : Evaluation α) : Prop := ∀ s, R s (x s).2

theorem Passes.of_run {R : Progress → Progress → Prop} {x : Evaluation α} {s t : Progress}
    {r : Except Stop α} (hx : Passes R x) (h : x s = (r, t)) : R s t := by
  have hs := hx s
  rwa [h] at hs

def Still (x : Evaluation α) : Prop := Passes (fun s t => t = s) x

theorem still_ofExcept (r : Except Stop α) : Still (Action.ofExcept r) := fun _ => rfl

theorem still_pure (a : α) : Still (pure a) := fun _ => rfl

theorem still_fault (f : Fault) : Still (Action.fault f : Evaluation α) := fun _ => rfl

theorem still_breakdown (b : Breakdown) : Still (Action.breakdown b : Evaluation α) := fun _ => rfl

theorem still_nodeAt (id : NodeId) : Still (nodeAt id) := fun _ => rfl

theorem still_cellAt (p : Position) : Still (cellAt p) := fun _ => rfl

theorem still_containsRegion (r : Region) : Still (containsRegion r) := fun _ => rfl

theorem still_ofBreakdown (x : Except Breakdown α) : Still (ofBreakdown x) := by
  cases x with
  | ok a => exact still_pure a
  | error b => exact still_breakdown b

theorem still_ofFault (x : Except Fault α) : Still (ofFault x) := by
  cases x with
  | ok a => exact still_pure a
  | error f => exact still_fault f

theorem Still.bind {x : Evaluation α} {f : α → Evaluation β} (hx : Still x)
    (hf : ∀ a, Still (f a)) : Still (x >>= f) := by
  intro s
  rcases hu : x s with ⟨r, u⟩
  obtain rfl : u = s := hx.of_run hu
  cases r with
  | ok a =>
    rw [Action.bind_ok hu]
    exact hf a u
  | error e => rw [Action.bind_error hu]

theorem still_operand (p : Position) (c : Cell) : Still (operand p c) := by
  have hunsettled : Still (do
      let name ← ofBreakdown p.name
      (Action.fault (.unsettled name) : Evaluation Float)) :=
    (still_ofBreakdown p.name).bind fun name => still_fault (.unsettled name)
  unfold operand
  cases c.content with
  | number x => exact still_pure x
  | formula _ _ x =>
    dsimp only
    split
    · exact still_pure x
    · exact hunsettled
  | empty => exact still_pure 0.0
  | text => exact still_fault .textOperand
  | separator => exact still_fault .separatorOperand
  | error f => exact still_fault f
  | clone => exact hunsettled

theorem still_checkForms (name : String) (index : Nat) (kinds : List ArgumentKind)
    (ids : List NodeId) : Still (checkForms name index kinds ids) := by
  induction kinds generalizing index ids with
  | nil => exact still_pure ()
  | cons kind kinds ih =>
    cases ids with
    | nil => exact still_pure ()
    | cons id ids =>
      apply (still_nodeAt id).bind
      intro n
      split
      · exact still_fault _
      · split
        · exact still_fault _
        · exact ih (index + 1) ids

theorem still_checkArguments (f : Function) (arguments : List NodeId) :
    Still (checkArguments f arguments) := by
  unfold checkArguments
  dsimp only
  split
  · exact still_fault _
  · exact still_checkForms _ _ _ _

section

variable {R : Nat → Progress → Progress → Prop} {n : Nat}

theorem Still.passes {x : Evaluation α} (hx : Still x) (hR : Passage R) : Passes (R n) x := by
  intro s
  rw [show (x s).2 = s from hx s]
  exact hR.refl n s

theorem Passage.bind (hR : Passage R) {x : Evaluation α} {f : α → Evaluation β} {s : Progress}
    (hx : R n s (x s).2) (hf : ∀ a t, x s = (.ok a, t) → R n t (f a t).2) :
    R n s ((x >>= f) s).2 := by
  rcases hu : x s with ⟨r, u⟩
  rw [hu] at hx
  cases r with
  | ok a =>
    rw [Action.bind_ok hu]
    exact hR.trans hx (hf a u hu)
  | error e =>
    rw [Action.bind_error hu]
    exact hx

theorem Passes.bind {x : Evaluation α} {f : α → Evaluation β} (hx : Passes (R n) x)
    (hR : Passage R) (hf : ∀ a, Passes (R n) (f a)) : Passes (R n) (x >>= f) := fun s =>
  hR.bind (hx s) fun a t _ => hf a t

theorem Passes.mono {m : Nat} {x : Evaluation α} (hx : Passes (R m) x) (hR : Passage R)
    (h : m ≤ n) : Passes (R n) x := fun s => hR.mono h (hx s)

theorem Passes.nested {x : Evaluation α} (hx : Passes (R n) x) (hR : Passage R) :
    Passes (R (n + 1)) (nested x) := fun s => hR.level (hx s.deeper)

variable {ask : Position → Evaluation Unit} {functions : Functions} {shift : Position}

theorem passes_reference (hR : Passage R) (hask : ∀ p, Passes (R n) (ask p)) (p : Position) :
    Passes (R n) (reference ask p) :=
  (hask p).bind hR fun _ => ((still_cellAt p).passes hR).bind hR fun c =>
    (still_operand p c).passes hR

theorem passes_memberValues (hR : Passage R) (hask : ∀ p, Passes (R n) (ask p)) (r : Region)
    (ps : List Position) : Passes (R n) (memberValues ask r ps) := by
  induction ps with
  | nil => exact (still_pure []).passes hR
  | cons p ps ih =>
    have hrest : ∀ x : Float, Passes (R n) (do let xs ← memberValues ask r ps; pure (x :: xs)) :=
      fun x => ih.bind hR fun xs => (still_pure _).passes hR
    apply (hask p).bind hR
    intro _
    apply ((still_cellAt p).passes hR).bind hR
    intro c
    dsimp only
    split
    · exact hrest _
    · split
      · apply ((still_ofBreakdown p.name).passes hR).bind hR
        intro name
        apply ((still_ofBreakdown r.name).passes hR).bind hR
        intro region
        have hnote : Passes (R n) (note (.countsAsZero name c.content.label region)) :=
          fun s => hR.note n s _ (by simp)
        exact hnote.bind hR fun _ => hrest 0.0
      · exact hrest 0.0

theorem passes_regionValues (hR : Passage R) (hask : ∀ p, Passes (R n) (ask p)) (r : Region) :
    Passes (R n) (regionValues ask r) := by
  apply ((still_containsRegion r).passes hR).bind hR
  intro inside
  split
  · exact passes_memberValues hR hask r r.positions
  · exact ((still_ofBreakdown r.name).passes hR).bind hR fun region =>
      (still_fault (.regionOutside region)).passes hR

theorem passes_argumentValues (hR : Passage R) (hask : ∀ p, Passes (R n) (ask p))
    {part : NodeId → Evaluation Float} {ids : List NodeId}
    (hpart : ∀ id ∈ ids, Passes (R n) (part id)) :
    Passes (R n) (argumentValues ask shift part ids) := by
  induction ids with
  | nil => exact (still_pure []).passes hR
  | cons id ids ih =>
    have hids := ih fun i hi => hpart i (List.mem_cons_of_mem id hi)
    have hrest : ∀ x : Argument, Passes (R n) (do
        let rest ← argumentValues ask shift part ids
        pure (x :: rest)) := fun x => hids.bind hR fun rest => (still_pure _).passes hR
    apply ((still_nodeAt id).passes hR).bind hR
    intro node
    cases node with
    | region r => exact (passes_regionValues hR hask _).bind hR fun xs => hrest _
    | _ => exact (hpart id List.mem_cons_self).bind hR fun x => hrest _

theorem passes_chained (hR : Passage R) {part : Bool → NodeId → Evaluation Float} {op : Operator}
    {left right : NodeId} (hleft : Passes (R n) (part true left))
    (hright : Passes (R n) (part false right)) :
    Passes (R n) (nodeValue ask functions shift part true (.binary op left right)) :=
  hleft.bind hR fun _ => hright.bind hR fun _ => (still_ofExcept _).passes hR

theorem passes_binary (hR : Passage R) {part : Bool → NodeId → Evaluation Float} {op : Operator}
    {left right : NodeId} (hleft : Passes (R n) (part true left))
    (hright : Passes (R n) (part false right)) :
    Passes (R (n + 1)) (nodeValue ask functions shift part false (.binary op left right)) := by
  have hsteps : Passes (R n) (nodeValue ask functions shift part true (.binary op left right)) :=
    passes_chained hR hleft hright
  exact hsteps.nested hR

theorem passes_nodeValue (hR : Passage R) (hask : ∀ p, Passes (R n) (ask p))
    {part : Bool → NodeId → Evaluation Float} {node : Node}
    (hpart : ∀ chained, ∀ id ∈ node.children, Passes (R n) (part chained id)) (chained : Bool) :
    Passes (R (n + 1)) (nodeValue ask functions shift part chained node) := by
  cases node with
  | number x => exact ((still_pure x).passes hR).nested hR
  | relative p => exact (passes_reference hR hask _).nested hR
  | absolute p => exact (passes_reference hR hask p).nested hR
  | region r => exact ((still_fault .rangeValue).passes hR).nested hR
  | binary op left right =>
    have hleft := hpart true left (by simp [Node.children])
    have hright := hpart false right (by simp [Node.children])
    cases chained with
    | true => exact (passes_chained hR hleft hright).mono hR (Nat.le_succ n)
    | false => exact passes_binary hR hleft hright
  | sign op operand =>
    exact ((hpart false operand (by simp [Node.children])).bind hR fun x =>
      (still_pure _).passes hR).nested hR
  | call name arguments =>
    apply Passes.nested _ hR
    apply ((still_ofFault (functions.find name)).passes hR).bind hR
    intro f
    apply ((still_checkArguments f arguments).passes hR).bind hR
    intro _
    apply (passes_argumentValues hR hask (hpart false)).bind hR
    intro xs
    exact (still_ofExcept (f.rule.apply xs)).passes hR

end

section

variable {R : Progress → Progress → Prop} {ask : Position → Evaluation Unit} {functions : Functions}
  {shift : Position}

theorem passes_valueWithin (hR : Passage fun _ => R) (hask : ∀ p, Passes R (ask p)) (levels : Nat)
    (chained : Bool) (id : NodeId) :
    Passes R (valueWithin ask functions shift levels chained id) := by
  induction levels generalizing chained id with
  | zero => exact (still_breakdown .endlessFormula).passes (n := 0) hR
  | succ levels ih =>
    apply Passes.bind (n := 0) ((still_nodeAt id).passes (n := 0) hR) hR
    intro node
    exact passes_nodeValue (n := 0) hR hask (fun chained id _ => ih chained id) chained

/-- A relation that does not speak of levels is kept by every formula, whatever its arena. -/
theorem passes_rootValue (hR : Passage fun _ => R) (hask : ∀ p, Passes R (ask p))
    (root : NodeId) : Passes R (rootValue ask functions shift root) := fun s =>
  passes_valueWithin hR hask s.grid.arena.levels false root s

end

section

variable {R : Nat → Progress → Progress → Prop} {n : Nat} {ctx : Context}
  {ask : Position → Evaluation Unit} {p : Position} {s t : Progress} {r : Except Stop Unit}

theorem Passage.of_release (hR : Passage R) (s : Progress) (p : Position) :
    R n s (s.release p) := by
  unfold Progress.release
  split
  · next ha => exact hR.mark n s p .pending (by simp [Progress.isActive_iff.1 ha])
  · exact hR.refl n s

theorem Passage.of_finish (hR : Passage R) {c : Cell}
    (hput : s.grid.phase p = .active → R n s (s.put p c)) : R n s (s.finish p c) := by
  unfold Progress.finish
  split
  · next ha => exact hput (Progress.isActive_iff.1 ha)
  · exact hR.refl n s

theorem Passage.of_attempt (hR : Passage R) {x : Evaluation Unit} (hx : Passes (R n) x)
    (hp : s.grid.phase p ≠ .done) (h : attempt p x s = (r, t)) : R (n + 1) s t := by
  unfold attempt at h
  rcases hu : nested x (s.mark p .active) with ⟨v, u⟩
  -- only a cell that is too deep has the one that asks for it given up
  have hdone := hR.trans (hR.mark (n + 1) s p .active hp) ((hx.nested hR).of_run hu)
  rw [hu] at h
  cases v with
  | ok a =>
    cases h
    exact hdone
  | error e =>
    cases e with
    | tooDeep q name =>
      cases h
      exact hR.trans hdone (hR.of_release u p)
    | fault f =>
      cases h
      exact hdone
    | breakdown b =>
      cases h
      exact hdone

theorem Passage.of_settleFormula (hR : Passage R) {root : NodeId} {shift : Position}
    (hvalue : Passes (R n) (rootValue ask ctx.functions shift root))
    (hput : ∀ w u v c, rootValue ask ctx.functions shift root w = (v, u) →
      u.grid.phase p = .active → Inquiry.settledFormula root shift v = .ok c →
      R n u (u.put p ⟨c, .done⟩))
    (hp : s.grid.phase p ≠ .done) (h : settleFormula ctx ask p root shift s = (r, t)) :
    R (n + 1) s t := by
  refine hR.of_attempt (fun s => ?_) hp h
  rcases hv : rootValue ask ctx.functions shift root s with ⟨v, u⟩
  have hu := hvalue.of_run hv
  rw [Manner.value_chained, hv]
  cases v with
  | ok x => exact hR.trans hu (hR.of_finish fun ha => hput s u _ _ hv ha rfl)
  | error e =>
    cases e with
    | fault f => exact hR.trans hu (hR.of_finish fun ha => hput s u _ _ hv ha rfl)
    | tooDeep q name => exact hu
    | breakdown b => exact hu

/-- A clone becomes a copy of its source, and is worked out if that is a formula. -/
def become (ctx : Context) (ask : Position → Evaluation Unit) (p : Position) (copy : Cell) :
    Evaluation Unit :=
  match copy.content with
  | .formula root shift _ => do
    Action.modify (·.put p copy)
    settleFormula ctx ask p root shift
  | content => Action.modify (·.put p ⟨content, .done⟩)

theorem Passage.of_become (hR : Passage R) {c : Cell} {d : Direction} {offset : Int}
    (hput : ∀ phase, R n s (s.put p ⟨(c.cloned d offset).content, phase⟩))
    (hformula : ∀ w root shift x r t, w.grid.phase p = .pending →
      w.grid.content p = .formula root shift x → settleFormula ctx ask p root shift w = (r, t) →
      R n w t) (hp : s.grid.phase p = .active) :
    R n s (become ctx ask p (c.cloned d offset) s).2 := by
  -- The copy waits, so it may be begun.
  have hin : s.grid.contains p := Grid.contains_of_phase (by simp [hp])
  have hphase : ∀ {root shift x}, (c.cloned d offset).content = .formula root shift x →
      (c.cloned d offset).phase = .pending := Cell.phase_cloned
  generalize c.cloned d offset = copy at hput hphase ⊢
  obtain ⟨content, phase⟩ := copy
  cases content with
  | formula root shift x =>
    obtain rfl : phase = .pending := hphase rfl
    apply hR.bind (hput .pending)
    rintro _ _ ⟨⟩
    exact hformula _ root shift x _ _ (by rw [Progress.grid_put, Grid.phase_set_self hin])
      (by rw [Progress.grid_put, Grid.content_set_self hin]) rfl
  | _ => exact hput .done

theorem Passage.of_settleClone (hR : Passage R) {d : Direction} {offset : Int}
    (hask : Passes (R n) (ask (p.move d offset)))
    (hput : ∀ u phase, u.grid.phase p = .active → R n u
      (u.put p ⟨((u.grid.cellAt (p.move d offset)).cloned d offset).content, phase⟩))
    (hformula : ∀ w root shift x r t, w.grid.phase p = .pending →
      w.grid.content p = .formula root shift x → settleFormula ctx ask p root shift w = (r, t) →
      R n w t) (hp : s.grid.phase p ≠ .done) (h : settleClone ctx ask p d offset s = (r, t)) :
    R (n + 1) s t := by
  refine hR.of_attempt (fun s => ?_) hp h
  apply hR.bind (hask s)
  rintro _ u -
  apply hR.bind (hR.refl n u)
  rintro _ _ ⟨⟩
  split
  · next hactive =>
    apply hR.bind (hR.refl n u)
    rintro seen _ ⟨⟩
    apply hR.bind ((still_ofBreakdown p.name).passes hR u)
    intro name v hv
    obtain rfl : v = u := (still_ofBreakdown p.name).of_run hv
    apply hR.bind ((still_ofBreakdown (p.move d offset).name).passes hR v)
    intro source w hw
    obtain rfl : w = v := (still_ofBreakdown _).of_run hw
    have ha := Progress.isActive_iff.1 hactive
    apply hR.bind (hR.note n w _ (by simp))
    rintro _ _ ⟨⟩
    exact hR.of_become (fun phase => hput (w.note _) phase ha) hformula ha
  · exact hR.refl n u

theorem passes_restartStep (hR : Passage R) (hsettle : ∀ p, Passes (R n) (settle ctx p))
    (hloop : ∀ p s q name u, settle ctx p s = (.error (.tooDeep q name), u) →
      R n u ((u.note (.cycle name)).put q (.ofFault .loop))) (waiting : List Position) :
    Passes (R n) (restartStep ctx waiting) := by
  cases waiting with
  | nil => exact (still_pure []).passes hR
  | cons p rest =>
    intro s
    unfold restartStep restartStepBy
    dsimp only
    rcases hv : settle ctx p s with ⟨v, u⟩
    have hu := (hsettle p).of_run hv
    cases v with
    | ok a => exact hu
    | error e =>
      cases e with
      | tooDeep q name =>
        dsimp only
        split
        · exact hR.trans hu (hloop p s q name u hv)
        · exact hR.trans hu (hR.note n u _ (by simp))
      | fault f => exact hu
      | breakdown b => exact hu

section

variable (hR : Passage R) (hstep : ∀ waiting, Passes (R n) (restartStep ctx waiting))
include hR hstep

theorem passes_restart (m : Nat) (waiting : List Position) :
    Passes (R n) (restart ctx m waiting) := by
  induction m generalizing waiting with
  | zero => exact (still_pure ()).passes hR
  | succ m ih =>
    cases waiting with
    | nil => exact (still_pure ()).passes hR
    | cons p rest => exact (hstep (p :: rest)).bind hR ih

theorem passes_ensure (p : Position) : Passes (R n) (ensure ctx p) := fun s =>
  passes_restart hR hstep (restartBound s.grid) [p] s

theorem passes_ensureAll (ps : List Position) : Passes (R n) (ensureAll ctx ps) := by
  induction ps with
  | nil => exact (still_pure ()).passes hR
  | cons p ps ih => exact (passes_ensure hR hstep p).bind hR fun _ => ih

theorem passes_evaluate : Passes (R n) (evaluate ctx) := fun s =>
  passes_ensureAll hR hstep s.grid.positions s

end

end

end Evaluation

end GridCalc
