import GridCalc.Proofs.Dependence

/-!
# What answers show

How the inquiry of a cell can have been answered, and where it can look on the way, case by case:
a literal answers itself, a formula comes to its value or to a fault, and a clone is its source or
takes over the formula of its source. When what is known is sound, every look is at a dependence
of the cell, and a strict dependence at which there is a fault leaves a fault.
-/

set_option autoImplicit false

namespace GridCalc

/-- A content is sound at a position: a formula there is the formula of the position, and a
position with a formula has that or a fault. -/
structure Content.SoundAt (start : Grid) (p : Position) (c : Content) : Prop where
  formulaAt : ∀ root shift x, c = .formula root shift x → start.FormulaAt p root shift
  value : ∀ root shift, start.FormulaAt p root shift → (∀ f, c ≠ .error f) →
    ∃ x, c = .formula root shift x

def Knowledge.Sound (start : Grid) (k : Knowledge) : Prop :=
  ∀ p c, k p = some c → c.SoundAt start p

namespace Grid
open Inquiry

inductive Answered (start : Grid) (functions : Functions) (k : Knowledge) (p : Position) :
    Content → Prop
  | literal : ¬ (start.content p).isDeferred → Answered start functions k p (start.content p)
  | formula {root : NodeId} {shift : Position} {x : Float} {v : Except Stop Float} {c : Content} :
      start.content p = .formula root shift x →
      Leads k (formulaValue start functions shift root) (.done v) →
      settledFormula root shift v = .ok c → Answered start functions k p c
  | copied {d : Direction} {offset : Int} {c : Content} : start.content p = .clone d offset →
      k (p.move d offset) = some c → (∀ root shift x, c ≠ .formula root shift x) →
      Answered start functions k p c
  | moved {d : Direction} {offset : Int} {root : NodeId} {shift : Position} {x : Float}
      {v : Except Stop Float} {c : Content} : start.content p = .clone d offset →
      k (p.move d offset) = some (.formula root shift x) →
      Leads k (formulaValue start functions (shift.move d.reverse offset) root) (.done v) →
      settledFormula root (shift.move d.reverse offset) v = .ok c → Answered start functions k p c

/-- Where the inquiry of a position can look, and how it goes on from there. -/
inductive Looking (start : Grid) (functions : Functions) (k : Knowledge) (p : Position) :
    Position → (Content → Inquiry Content) → Prop
  | formula {root : NodeId} {shift : Position} {x : Float} {q : Position}
      {next : Content → Inquiry Float} : start.content p = .formula root shift x →
      Leads k (formulaValue start functions shift root) (.look q next) →
      Looking start functions k p q fun c => (next c).mapEnd (settledFormula root shift)
  | source {d : Direction} {offset : Int} {next : Content → Inquiry Content} :
      start.content p = .clone d offset → (∀ f, next (.error f) = .done (.ok (.error f))) →
      Looking start functions k p (p.move d offset) next
  | moved {d : Direction} {offset : Int} {root : NodeId} {shift : Position} {x : Float}
      {q : Position} {next : Content → Inquiry Float} : start.content p = .clone d offset →
      k (p.move d offset) = some (.formula root shift x) →
      Leads k (formulaValue start functions (shift.move d.reverse offset) root) (.look q next) →
      Looking start functions k p q
        fun c => (next c).mapEnd (settledFormula root (shift.move d.reverse offset))

section

variable {start : Grid} {functions : Functions} {k : Knowledge} {p q : Position} {c : Content}
  {next : Content → Inquiry Content}

theorem answered_of_leads
    (h : Leads k (start.inquiry functions p) (.done (.ok c))) :
    Answered start functions k p c := by
  unfold inquiry at h
  cases hc : start.content p with
  | formula root shift x =>
    rw [hc] at h
    obtain ⟨v, hv, hs⟩ := leads_mapEnd_done h
    exact .formula hc hv hs
  | clone d offset =>
    rw [hc] at h
    obtain ⟨seen, hseen, h⟩ := leads_look h
    cases seen with
    | formula root shift x =>
      obtain ⟨v, hv, hs⟩ := leads_mapEnd_done h
      exact .moved hc hseen hv hs
    | _ =>
      cases leads_done h
      exact .copied hc hseen (by simp)
  | _ =>
    rw [hc] at h
    cases leads_done h
    rw [← hc]
    exact .literal (by simp [hc, Content.isDeferred])

theorem looking_of_leads (h : Leads k (start.inquiry functions p) (.look q next)) :
    Looking start functions k p q next := by
  unfold inquiry at h
  cases hc : start.content p with
  | formula root shift x =>
    rw [hc] at h
    obtain ⟨next', hl, rfl⟩ := leads_mapEnd_look h
    exact .formula hc hl
  | clone d offset =>
    rw [hc] at h
    cases h with
    | refl => exact .source hc fun _ => rfl
    | @look _ seen _ _ hseen h =>
      cases seen with
      | formula root shift x =>
        obtain ⟨next', hl, rfl⟩ := leads_mapEnd_look h
        exact .moved hc hseen hl
      | _ => cases leads_done h
  | _ =>
    rw [hc] at h
    cases leads_done h

theorem settledFormula_ok {root : NodeId} {shift : Position} {v : Except Stop Float}
    (h : settledFormula root shift v = .ok c) :
    (∃ x, v = .ok x ∧ c = .formula root shift x) ∨ ∃ f, v = .error (.fault f) ∧ c = .error f := by
  cases v with
  | ok x =>
    cases h
    exact .inl ⟨x, rfl, rfl⟩
  | error e =>
    cases e with
    | fault f =>
      cases h
      exact .inr ⟨f, rfl, rfl⟩
    | tooDeep => cases h
    | breakdown => cases h

theorem soundAt_of_settledFormula {root : NodeId} {shift : Position} {v : Except Stop Float}
    (hp : start.FormulaAt p root shift) (h : settledFormula root shift v = .ok c) :
    c.SoundAt start p := by
  constructor
  · intro root' shift' x hc
    obtain ⟨x', _, rfl⟩ | ⟨f, _, rfl⟩ := settledFormula_ok h
    · cases hc
      exact hp
    · cases hc
  · intro root' shift' hp' hc
    obtain ⟨x', _, rfl⟩ | ⟨f, _, rfl⟩ := settledFormula_ok h
    · obtain ⟨rfl, rfl⟩ := formulaAt_unique hp hp'
      exact ⟨x', rfl⟩
    · exact absurd rfl (hc f)

theorem formulaAt_moved (hk : k.Sound start) {d : Direction} {offset : Int} {root : NodeId}
    {shift : Position} {x : Float} (hc : start.content p = .clone d offset)
    (hs : k (p.move d offset) = some (.formula root shift x)) :
    start.FormulaAt p root (shift.move d.reverse offset) := by
  rw [Position.move_reverse_eq_shift shift p]
  exact .clone hc ((hk _ _ hs).formulaAt root shift x rfl)

theorem soundAt_of_answered (hk : k.Sound start) (h : Answered start functions k p c) :
    c.SoundAt start p := by
  cases h with
  | literal hlit =>
    constructor
    · intro root shift x hc
      rw [hc] at hlit
      exact absurd rfl hlit
    · intro root shift hp _
      cases hp with
      | own hc =>
        rw [hc] at hlit
        exact absurd rfl hlit
      | clone hc =>
        rw [hc] at hlit
        exact absurd rfl hlit
  | formula hc _ hv => exact soundAt_of_settledFormula (.own hc) hv
  | copied hc hs hnot =>
    constructor
    · intro root shift x he
      exact absurd he (hnot root shift x)
    · intro root shift hp hne
      cases hp with
      | own hc' =>
        rw [hc] at hc'
        cases hc'
      | clone hc' hsource =>
        rw [hc] at hc'
        cases hc'
        obtain ⟨x, hx⟩ := (hk _ _ hs).value _ _ hsource hne
        exact absurd hx (hnot _ _ x)
  | moved hc hs _ hv => exact soundAt_of_settledFormula (formulaAt_moved hk hc hs) hv

theorem value_of_answered (hk : k.Sound start) (h : Answered start functions k p c)
    (hne : ∀ f, c ≠ .error f) {root : NodeId} {shift : Position}
    (hp : start.FormulaAt p root shift) :
    ∃ x, Leads k (formulaValue start functions shift root) (.done (.ok x)) := by
  have hworked : ∀ {root' shift' v}, start.FormulaAt p root' shift' →
      Leads k (formulaValue start functions shift' root') (.done v) →
      settledFormula root' shift' v = .ok c →
      ∃ x, Leads k (formulaValue start functions shift root) (.done (.ok x)) := by
    intro root' shift' v hp' hl hv
    obtain ⟨rfl, rfl⟩ := formulaAt_unique hp hp'
    obtain ⟨x, rfl, _⟩ | ⟨f, _, rfl⟩ := settledFormula_ok hv
    · exact ⟨x, hl⟩
    · exact absurd rfl (hne f)
  obtain ⟨x, hx⟩ := (soundAt_of_answered hk h).value root shift hp hne
  cases h with
  | literal hlit =>
    rw [hx] at hlit
    exact absurd rfl hlit
  | formula hc hl hv => exact hworked (.own hc) hl hv
  | copied _ _ hnot => exact absurd hx (hnot root shift x)
  | moved hc hs hl hv => exact hworked (formulaAt_moved hk hc hs) hl hv

theorem seen_of_answered (hk : k.Sound start) (h : Answered start functions k p c)
    (hne : ∀ f, c ≠ .error f) (hq : start.StrictlyDepends p q) :
    ∃ d, k q = some d ∧ ∀ f, d ≠ .error f := by
  -- A content other than a fault comes only of dependences that are none.
  cases hq with
  | source hc =>
    cases h with
    | literal hlit =>
      rw [hc] at hlit
      exact absurd rfl hlit
    | formula hc' =>
      rw [hc] at hc'
      cases hc'
    | copied hc' hs =>
      rw [hc] at hc'
      cases hc'
      exact ⟨_, hs, hne⟩
    | moved hc' hs =>
      rw [hc] at hc'
      cases hc'
      exact ⟨_, hs, by simp⟩
  | reference hp hr =>
    obtain ⟨x, hl⟩ := value_of_answered hk h hne hp
    exact seen_of_refers hr hl

theorem depends_of_looking (hk : k.Sound start) (h : Looking start functions k p q next)
    (hq : start.contains q) :
    (start.StrictlyDepends p q ∧ ∀ f, next (.error f) = .done (.ok (.error f))) ∨
      start.LooselyDepends p q := by
  have hworked : ∀ {root shift} {next : Content → Inquiry Float}, start.FormulaAt p root shift →
      Leads k (formulaValue start functions shift root) (.look q next) →
      (start.StrictlyDepends p q ∧
        ∀ f, (next (.error f)).mapEnd (settledFormula root shift) = .done (.ok (.error f))) ∨
      start.LooselyDepends p q := by
    intro root shift next hp hl
    rcases (looks_formulaValue root).of_leads hl with ⟨hr, hnext⟩ | hr
    · refine .inl ⟨.reference hp hr hq, fun f => ?_⟩
      rw [hnext f]
      rfl
    · exact .inr (.member hp hr hq)
  cases h with
  | formula hc hl => exact hworked (.own hc) hl
  | source hc hnext => exact .inl ⟨.source hc hq, hnext⟩
  | moved hc hs hl => exact hworked (formulaAt_moved hk hc hs) hl

end

end Grid

end GridCalc
