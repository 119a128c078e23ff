import GridCalc.Proofs.Meaning
import Mathlib.Logic.Relation

/-!
# Dependence

Which cells of a table a cell depends on, as the table is written. The formula of a position is
its own or, for a clone, that of its source with the way from the source to the clone added to the
shift. A cell depends strictly on the source of a clone and on every reference of its formula, and
loosely on the members of a region, whose faults count as zero. The inquiry of a formula looks at
nothing else, and ends with a value only if it has seen every strict dependence without a fault.
-/

set_option autoImplicit false

namespace GridCalc

/-- The way from `q` to `p`. -/
def Position.wayFrom (p q : Position) : Position := ⟨p.row - q.row, p.column - q.column⟩

theorem Position.move_reverse_eq_shift (s p : Position) (d : Direction) (offset : Int) :
    s.move d.reverse offset = s.shift (p.wayFrom (p.move d offset)) := by
  simp only [move, shift, wayFrom, Direction.step_reverse, mk.injEq, Int.neg_mul]
  omega

inductive Arena.Part (a : Arena) : NodeId → NodeId → Prop
  | root (id : NodeId) : Part a id id
  | left {id x l r : NodeId} {op : Operator} :
      a.node? id = some (.binary op l r) → Part a l x → Part a id x
  | right {id x l r : NodeId} {op : Operator} :
      a.node? id = some (.binary op l r) → Part a r x → Part a id x
  | operand {id x o : NodeId} {op : Operator} :
      a.node? id = some (.sign op o) → Part a o x → Part a id x
  | argument {id x o : NodeId} {name : String} {arguments : List NodeId} :
      a.node? id = some (.call name arguments) → o ∈ arguments → Part a o x → Part a id x

namespace Grid

inductive Refers (g : Grid) (root : NodeId) (shift : Position) : Position → Prop
  | relative {id : NodeId} {p : Position} : g.arena.Part root id →
      g.arena.node? id = some (.relative p) → Refers g root shift (p.shift shift)
  | absolute {id : NodeId} {p : Position} : g.arena.Part root id →
      g.arena.node? id = some (.absolute p) → Refers g root shift p

inductive Covers (g : Grid) (root : NodeId) (shift : Position) : Position → Prop
  | member {id : NodeId} {r : Region} {p : Position} : g.arena.Part root id →
      g.arena.node? id = some (.region r) → p ∈ (r.shift shift).positions → Covers g root shift p

/-- The formula of a position: root and shift. -/
inductive FormulaAt (g : Grid) : Position → NodeId → Position → Prop
  | own {p shift : Position} {root : NodeId} {x : Float} :
      g.content p = .formula root shift x → FormulaAt g p root shift
  | clone {p shift : Position} {root : NodeId} {d : Direction} {offset : Int} :
      g.content p = .clone d offset → FormulaAt g (p.move d offset) root shift →
      FormulaAt g p root (shift.shift (p.wayFrom (p.move d offset)))

/-- Dependences that pass faults on. -/
inductive StrictlyDepends (g : Grid) : Position → Position → Prop
  | source {p : Position} {d : Direction} {offset : Int} : g.content p = .clone d offset →
      g.contains (p.move d offset) → StrictlyDepends g p (p.move d offset)
  | reference {p q shift : Position} {root : NodeId} : g.FormulaAt p root shift →
      g.Refers root shift q → g.contains q → StrictlyDepends g p q

/-- Dependences through a region. -/
inductive LooselyDepends (g : Grid) : Position → Position → Prop
  | member {p q shift : Position} {root : NodeId} : g.FormulaAt p root shift →
      g.Covers root shift q → g.contains q → LooselyDepends g p q

def Depends (g : Grid) (p q : Position) : Prop := g.StrictlyDepends p q ∨ g.LooselyDepends p q

def MeetsLoop (g : Grid) (p : Position) : Prop :=
  ∃ q, Relation.ReflTransGen g.Depends p q ∧ Relation.TransGen g.Depends q q

def MeetsLooseLoop (g : Grid) (p : Position) : Prop :=
  ∃ q r, Relation.ReflTransGen g.Depends p q ∧ g.LooselyDepends q r ∧
    Relation.ReflTransGen g.Depends r q

theorem formulaAt_unique {g : Grid} {p shift shift' : Position} {root root' : NodeId}
    (h : g.FormulaAt p root shift) (h' : g.FormulaAt p root' shift') :
    root = root' ∧ shift = shift' := by
  induction h generalizing root' shift' with
  | own hc =>
    cases h' with
    | own hc' => simp_all
    | clone hc' => simp_all
  | clone hc _ ih =>
    cases h' with
    | own hc' => simp_all
    | clone hc' hf =>
      rw [hc] at hc'
      cases hc'
      obtain ⟨rfl, rfl⟩ := ih hf
      exact ⟨rfl, rfl⟩

theorem FormulaAt.isDeferred {g : Grid} {p shift : Position} {root : NodeId}
    (h : g.FormulaAt p root shift) : (g.content p).isDeferred = true := by
  cases h with
  | own hc => rw [hc]; rfl
  | clone hc => rw [hc]; rfl

theorem Depends.isDeferred {g : Grid} {p q : Position} (h : g.Depends p q) :
    (g.content p).isDeferred = true := by
  obtain (⟨hc, -⟩ | ⟨hf, -, -⟩) | ⟨hf, -, -⟩ := h
  · rw [hc]; rfl
  · exact hf.isDeferred
  · exact hf.isDeferred

section

variable {g : Grid} {root id : NodeId} {shift p : Position}

theorem Refers.of_part (h : ∀ x, g.arena.Part id x → g.arena.Part root x)
    (hr : g.Refers id shift p) : g.Refers root shift p := by
  cases hr with
  | relative hp hn => exact .relative (h _ hp) hn
  | absolute hp hn => exact .absolute (h _ hp) hn

theorem Covers.of_part (h : ∀ x, g.arena.Part id x → g.arena.Part root x)
    (hc : g.Covers id shift p) : g.Covers root shift p := by
  cases hc with
  | member hp hn hm => exact .member (h _ hp) hn hm

end

end Grid

namespace Inquiry

variable {S L : Position → Prop} {g : Grid} {functions : Functions} {shift : Position}

theorem looks_ofBreakdown {α : Type} (x : Except Breakdown α) : (ofBreakdown x).Looks S L := by
  cases x <;> trivial

theorem looks_operand (p : Position) (c : Content) : (c.operand p).Looks S L := by
  cases c with
  | clone => exact (looks_ofBreakdown p.name).bind fun _ => trivial
  | _ => trivial

theorem looks_reference {p : Position} (h : S p) : (reference p).Looks S L :=
  ⟨.inl ⟨h, fun _ => rfl⟩, fun c => looks_operand p c⟩

theorem looks_countAsZero (r : Region) (p : Position) (c : Content) :
    (countAsZero r p c).Looks S L := by
  unfold countAsZero
  split
  · apply (looks_ofBreakdown p.name).bind
    intro _
    apply (looks_ofBreakdown r.name).bind
    intro _
    trivial
  · trivial

theorem looks_memberValues (r : Region) (ps : List Position) (h : ∀ p ∈ ps, L p) :
    (memberValues r ps).Looks S L := by
  induction ps with
  | nil => trivial
  | cons p ps ih =>
    have hps := ih fun q hq => h q (by simp [hq])
    refine ⟨.inr (h p (by simp)), fun c => ?_⟩
    dsimp only
    split
    · exact hps.bind fun _ => trivial
    · exact (looks_countAsZero r p c).bind fun _ => hps.bind fun _ => trivial

theorem looks_regionValues (r : Region) (h : ∀ p ∈ r.positions, L p) :
    (regionValues g r).Looks S L := by
  unfold regionValues
  split
  · exact looks_memberValues r _ h
  · exact (looks_ofBreakdown r.name).bind fun _ => trivial

theorem looks_checkForms (name : String) (index : Nat) (kinds : List ArgumentKind)
    (ids : List NodeId) : (checkForms g name index kinds ids).Looks S L := by
  induction kinds generalizing index ids with
  | nil => simp [checkForms, pure, Looks]
  | cons kind kinds ih =>
    cases ids with
    | nil => simp [checkForms, pure, Looks]
    | cons id ids =>
      apply (looks_ofBreakdown (g.arena.find id)).bind
      intro n
      split
      · trivial
      · split
        · trivial
        · exact ih (index + 1) ids

theorem looks_checkArguments (f : Function) (arguments : List NodeId) :
    (checkArguments g f arguments).Looks S L := by
  unfold checkArguments
  split
  · trivial
  · exact looks_checkForms _ _ _ _

theorem looks_argumentValues {part : NodeId → Inquiry Float} (ids : List NodeId)
    (hpart : ∀ id ∈ ids, (part id).Looks S L)
    (hregion : ∀ id ∈ ids, ∀ r, g.arena.node? id = some (.region r) →
      ∀ p ∈ (r.shift shift).positions, L p) :
    (argumentValues g shift part ids).Looks S L := by
  induction ids with
  | nil => trivial
  | cons id ids ih =>
    have hids := ih (fun i hi => hpart i (by simp [hi])) (fun i hi => hregion i (by simp [hi]))
    unfold argumentValues nodeAt Arena.find
    cases hn : g.arena.node? id with
    | none => trivial
    | some n =>
      cases n with
      | region r =>
        exact (looks_regionValues _ (hregion id (by simp) r hn)).bind fun _ =>
          hids.bind fun _ => trivial
      | _ => exact (hpart id (by simp)).bind fun _ => hids.bind fun _ => trivial

theorem valueWithin_of_node {levels : Nat} {id : NodeId} {n : Node}
    (h : g.arena.node? id = some n) : valueWithin g functions shift (levels + 1) id =
      nodeValue g functions shift (valueWithin g functions shift levels) n := by
  rw [valueWithin, nodeAt, Arena.find, h]
  rfl

theorem valueWithin_of_no_node {levels : Nat} {id : NodeId} (h : g.arena.node? id = none) :
    valueWithin g functions shift (levels + 1) id =
      done (.error (.breakdown (.unknownNode id))) := by
  rw [valueWithin, nodeAt, Arena.find, h]
  rfl

theorem looks_valueWithin (levels : Nat) (id : NodeId) :
    (valueWithin g functions shift levels id).Looks (g.Refers id shift) (g.Covers id shift) := by
  induction levels generalizing id with
  | zero => trivial
  | succ levels ih =>
    have part : ∀ i, (∀ x, g.arena.Part i x → g.arena.Part id x) →
        (valueWithin g functions shift levels i).Looks (g.Refers id shift) (g.Covers id shift) :=
      fun i hi => (ih i).mono (fun _ => .of_part hi) (fun _ => .of_part hi)
    cases hn : g.arena.node? id with
    | none =>
      rw [valueWithin_of_no_node hn]
      trivial
    | some n =>
      rw [valueWithin_of_node hn]
      cases n with
      | number x => trivial
      | relative p => exact looks_reference (.relative (.root id) hn)
      | absolute p => exact looks_reference (.absolute (.root id) hn)
      | region r => trivial
      | binary op left right =>
        exact (part left fun _ => .left hn).bind fun _ =>
          (part right fun _ => .right hn).bind fun _ => trivial
      | sign op operand => exact (part operand fun _ => .operand hn).bind fun _ => trivial
      | call name arguments =>
        have hf : (findFunction functions name).Looks (g.Refers id shift) (g.Covers id shift) := by
          unfold findFunction
          split <;> trivial
        refine hf.bind fun f => (looks_checkArguments f arguments).bind fun _ =>
          (looks_argumentValues arguments ?_ ?_).bind fun _ => trivial
        · intro i hi
          exact part i fun _ => .argument hn hi
        · intro i hi r hr p hp
          exact .member (.argument hn hi (.root i)) hr hp

theorem looks_formulaValue (root : NodeId) :
    (formulaValue g functions shift root).Looks (g.Refers root shift) (g.Covers root shift) :=
  looks_valueWithin _ root

section

variable {k : Knowledge}

theorem leads_operand_ok {p : Position} {c : Content} {x : Float}
    (h : Leads k (c.operand p) (done (.ok x))) : ∀ f, c ≠ .error f := by
  rintro f rfl
  have he := leads_done h
  simp at he

theorem leads_argumentValues_ok {part : NodeId → Inquiry Float} {ids : List NodeId}
    {xs : List Argument} (h : Leads k (argumentValues g shift part ids) (done (.ok xs))) :
    ∀ id ∈ ids, (∃ r, g.arena.node? id = some (.region r)) ∨
      ∃ x, Leads k (part id) (done (.ok x)) := by
  induction ids generalizing xs with
  | nil => simp
  | cons id ids ih =>
    unfold argumentValues nodeAt Arena.find at h
    obtain ⟨n, hn, h⟩ := leads_bind_ok h
    cases hid : g.arena.node? id with
    | none =>
      rw [hid] at hn
      exact absurd (leads_done hn) (by simp)
    | some m =>
      rw [hid] at hn
      have he := leads_done hn
      simp only [done.injEq, Except.ok.injEq] at he
      subst he
      intro i hi
      rcases List.mem_cons.1 hi with rfl | hi
      · cases n with
        | region r => exact .inl ⟨r, hid⟩
        | _ =>
          obtain ⟨x, hx, _⟩ := leads_bind_ok h
          exact .inr ⟨x, hx⟩
      · cases n with
        | region r =>
          obtain ⟨_, _, h⟩ := leads_bind_ok h
          obtain ⟨_, hrest, _⟩ := leads_bind_ok h
          exact ih hrest i hi
        | _ =>
          obtain ⟨_, _, h⟩ := leads_bind_ok h
          obtain ⟨_, hrest, _⟩ := leads_bind_ok h
          exact ih hrest i hi

theorem leads_node {levels : Nat} {id : NodeId} {x : Float}
    (h : Leads k (valueWithin g functions shift levels id) (done (.ok x))) :
    ∃ n levels, g.arena.node? id = some n ∧
      Leads k (nodeValue g functions shift (valueWithin g functions shift levels) n)
        (done (.ok x)) := by
  cases levels with
  | zero => exact absurd (leads_done h) (by simp)
  | succ levels =>
    cases hn : g.arena.node? id with
    | none =>
      rw [valueWithin_of_no_node hn] at h
      exact absurd (leads_done h) (by simp)
    | some n =>
      rw [valueWithin_of_node hn] at h
      exact ⟨n, levels, rfl, h⟩

theorem leads_part {levels : Nat} {root y : NodeId} {x : Float} (hp : g.arena.Part root y)
    (hy : ∀ r, g.arena.node? y ≠ some (.region r))
    (h : Leads k (valueWithin g functions shift levels root) (done (.ok x))) :
    ∃ levels x, Leads k (valueWithin g functions shift levels y) (done (.ok x)) := by
  induction hp generalizing levels x with
  | root => exact ⟨levels, x, h⟩
  | left hn _ ih =>
    obtain ⟨n, _, hn', h⟩ := leads_node h
    cases hn.symm.trans hn'
    obtain ⟨_, hl, _⟩ := leads_bind_ok h
    exact ih hy hl
  | right hn _ ih =>
    obtain ⟨n, _, hn', h⟩ := leads_node h
    cases hn.symm.trans hn'
    obtain ⟨_, _, h⟩ := leads_bind_ok h
    obtain ⟨_, hr, _⟩ := leads_bind_ok h
    exact ih hy hr
  | operand hn _ ih =>
    obtain ⟨n, _, hn', h⟩ := leads_node h
    cases hn.symm.trans hn'
    obtain ⟨_, ho, _⟩ := leads_bind_ok h
    exact ih hy ho
  | argument hn hmem hpart ih =>
    obtain ⟨n, _, hn', h⟩ := leads_node h
    cases hn.symm.trans hn'
    obtain ⟨_, _, h⟩ := leads_bind_ok h
    obtain ⟨_, _, h⟩ := leads_bind_ok h
    obtain ⟨_, hargs, _⟩ := leads_bind_ok h
    rcases leads_argumentValues_ok hargs _ hmem with ⟨r, hr⟩ | ⟨_, ho⟩
    · cases hpart with
      | root => exact absurd hr (hy r)
      | _ => simp_all
    · exact ih hy ho

theorem seen_of_leads_reference {p : Position} {x : Float}
    (h : Leads k (reference p) (done (.ok x))) : ∃ c, k p = some c ∧ ∀ f, c ≠ .error f := by
  obtain ⟨c, hc, h⟩ := leads_look h
  exact ⟨c, hc, leads_operand_ok h⟩

/-- A formula with a value has seen all its references, and no fault at any of them. -/
theorem seen_of_refers {root : NodeId} {x : Float} {p : Position} (hp : g.Refers root shift p)
    (h : Leads k (formulaValue g functions shift root) (done (.ok x))) :
    ∃ c, k p = some c ∧ ∀ f, c ≠ .error f := by
  cases hp with
  | relative hpart hn =>
    obtain ⟨_, _, h⟩ := leads_part hpart (by simp [hn]) h
    obtain ⟨n, _, hn', h⟩ := leads_node h
    cases hn.symm.trans hn'
    exact seen_of_leads_reference h
  | absolute hpart hn =>
    obtain ⟨_, _, h⟩ := leads_part hpart (by simp [hn]) h
    obtain ⟨n, _, hn', h⟩ := leads_node h
    cases hn.symm.trans hn'
    exact seen_of_leads_reference h

end

end Inquiry

end GridCalc
