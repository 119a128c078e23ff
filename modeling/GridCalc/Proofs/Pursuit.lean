import GridCalc.Proofs.Faithful
import GridCalc.Proofs.Settling

/-!
# Settling keeps a table faithful

While a cell is worked out, every cell under way waits for it: each has come, by what its inquiry
looks at, to the one that is begun next. So a cell that is asked for while it is under way lies on
a loop, and the cell that lies too deep is one that is waited for. On a table where this holds,
settling a cell keeps the table faithful.
-/

set_option autoImplicit false

namespace GridCalc

namespace Grid
open Relation

/-- All cells under way wait for `p`. -/
def AllAwait (start : Grid) (functions : Functions) (g : Grid) (p : Position) : Prop :=
  ∀ a, g.phase a = .active → TransGen (Reads start functions g) a p

/-- The cell at `p` has been asked for: what lies too deep is a cell that it waits for, or `p`. -/
structure Sought (start : Grid) (functions : Functions) (p : Position) {α : Type}
    (r : Except Stop α) (g : Grid) : Prop where
  faithful : Faithful start functions g
  deep : ∀ q name, r = .error (.tooDeep q name) → ReflTransGen (Reads start functions g) p q

structure Begun (start : Grid) (functions : Functions) (p : Position) {α : Type}
    (r : Except Stop α) (g : Grid) : Prop where
  faithful : Faithful start functions g
  deep : ∀ q name, r = .error (.tooDeep q name) → TransGen (Reads start functions g) p q

variable {start g h : Grid} {functions : Functions} {p q : Position} {α : Type}
  {r : Except Stop α}

theorem Begun.of_shallow (hg : Faithful start functions g) (hr : Shallow r) :
    Begun start functions p r g :=
  ⟨hg, fun _ _ he => absurd trivial (hr _ he)⟩

theorem Begun.sought (hp : Begun start functions p r g) : Sought start functions p r g :=
  ⟨hp.faithful, fun q name he => (hp.deep q name he).to_reflTransGen⟩

theorem AllAwait.step (hp : ∀ a, g.phase a = .active → ReflTransGen (Reads start functions g) a p)
    (hq : Reads start functions g p q) : AllAwait start functions g q := by
  intro a ha
  exact TransGen.tail' (hp a ha) hq

theorem AllAwait.marked (hp : AllAwait start functions g p) (hw : g.phase p = .pending) :
    ∀ a, (g.marked p).phase a = .active →
      ReflTransGen (Reads start functions (g.marked p)) a p := by
  intro a ha
  by_cases hap : a = p
  · rw [hap]
  · rw [Grid.marked, phase_set_ne hap] at ha
    have hk : g.known.Within (g.marked p).known := known_within_set (by simp [hw])
    exact (reads_trans_mono hk (hp a ha)).to_reflTransGen

theorem AllAwait.resumed {b : α} {c : Cell} (hp : AllAwait start functions g p)
    (hw : g.phase p = .pending) (ho : (g.marked p).Orderly (.ok b : Except Stop α) h)
    (hh : h.phase p ≠ .done) (hc : c.phase ≠ .active) :
    AllAwait start functions (h.set p c) p := by
  intro a ha
  have hap : a ≠ p := by
    rintro rfl
    rw [phase_set_self (contains_of_phase hh)] at ha
    exact hc ha
  rw [phase_set_ne hap] at ha
  have ha' := ho.quiet (by simp) a ha
  rw [Grid.marked, phase_set_ne hap] at ha'
  have hmarked : g.known.Within (g.marked p).known := known_within_set (by simp [hw])
  have hreads := reads_trans_mono hmarked (hp a ha')
  exact reads_trans_mono (known_within_set hh) (reads_trans_mono ho.advance.known_within hreads)

end Grid

namespace Evaluation
open Grid Inquiry Relation

variable {ctx : Context} {ask : Position → Evaluation Unit} {start : Grid} {p : Position}
  {s t : Progress} {r : Except Stop Unit}

def Pursues (start : Grid) (functions : Functions) (ask : Position → Evaluation Unit) : Prop :=
  ∀ {p s r t}, Faithful start functions s.grid → AllAwait start functions s.grid p →
    ask p s = (r, t) → Sought start functions p r t.grid

/-- What the inquiry of `p` has come to when the value of its formula has been worked out. -/
structure Worked (start : Grid) (functions : Functions) (p : Position) (root : NodeId)
    (shift : Position) (v : Except Stop Float) (h : Grid) : Prop where
  faithful : Faithful start functions h
  value : ∀ c, settledFormula root shift v = .ok c →
    Leads h.known (start.inquiry functions p) (.done (.ok c))
  deep : ∀ q name, v = .error (.tooDeep q name) → TransGen (Reads start functions h) p q

theorem run_worked {functions : Functions} (hask : Settles ask)
    (hpursue : Pursues start functions ask) {root : NodeId} {shift : Position}
    {q : Inquiry Float} {g h : Grid} {v : Except Stop Float} (hq : q.Run ask g v h)
    (hg : Faithful start functions g)
    (hup : ∀ a, g.phase a = .active → ReflTransGen (Reads start functions g) a p)
    (hl : Leads g.known (start.inquiry functions p) (q.mapEnd (settledFormula root shift))) :
    Worked start functions p root shift v h := by
  -- What has been seen so far is known, so the inquiry of the cell has been led as far as the run
  -- has got.
  induction hq with
  | done hr =>
    refine ⟨hg, fun c hc => ?_, fun _ _ he => absurd trivial (hr _ he)⟩
    rw [← hc]
    exact hl
  | @stopped p' next g s t e hs he =>
    subst hs
    have hreads : Reads start functions s.grid p p' := ⟨_, hl⟩
    obtain ⟨hfaithful, hdeep⟩ := hpursue hg (.step hup hreads) he
    obtain ⟨ho, _, hfault⟩ := hask.settling he
    refine ⟨hfaithful, fun c hc => ?_, fun q name hq => ?_⟩
    · cases e with
      | fault f => exact absurd rfl (hfault f)
      | tooDeep => cases hc
      | breakdown => cases hc
    · cases hq
      exact TransGen.head' (hreads.mono ho.advance.known_within) (hdeep q name rfl)
  | @looked p' next g h s t r hs ht hd _ ih =>
    subst hs
    have hreads : Reads start functions s.grid p p' := ⟨_, hl⟩
    obtain ⟨hfaithful, _⟩ := hpursue hg (.step hup hreads) ht
    have ho := (hask.settling ht).orderly
    have hk := ho.advance.known_within
    refine ih hfaithful (fun a ha => ?_) ?_
    · exact reads_reflTrans_mono hk (hup a (ho.quiet (by simp) a ha))
    · exact (hl.mono hk).trans (.look (known_of_done hd) (.refl _))

theorem settleFormula_begun (hask : Settles ask) (hpursue : Pursues start ctx.functions ask)
    {root : NodeId} {shift : Position} {x : Float}
    (hg : Faithful start ctx.functions s.grid) (hup : AllAwait start ctx.functions s.grid p)
    (hp : s.grid.phase p = .pending) (hc : s.grid.content p = .formula root shift x)
    (h : settleFormula ctx ask p root shift s = (r, t)) :
    Begun start ctx.functions p r t.grid := by
  obtain ⟨s', u, v, hs, hv, hend⟩ := settleFormula_cases h
  have hmarked : Faithful start ctx.functions s'.grid := hs ▸ hg.marked hp
  have hrun := (follows_rootValue hask.asks root s' v u hmarked.alike hv).1
  have hk : s.grid.known.Within s'.grid.known := hs ▸ known_within_set (by simp [hp])
  have hl := (hg.waiting p (by simp [hp])).mono hk
  rw [hc] at hl
  obtain ⟨hfaithful, hvalue, hdeep⟩ :=
    run_worked hask hpursue hrun hmarked (hs ▸ hup.marked hp) hl
  generalize t.grid = i at hend
  cases hend with
  | settled hv => exact .of_shallow (hfaithful.finished (hvalue _ hv)) (shallow_ok ())
  | deep =>
    refine ⟨hfaithful.released p, fun q name he => ?_⟩
    cases he
    exact reads_trans_mono (known_within_released p) (hdeep q name rfl)
  | broken => exact .of_shallow hfaithful (shallow_breakdown _)

theorem settleClone_begun (hask : Settles ask) (hpursue : Pursues start ctx.functions ask)
    {d : Direction} {offset : Int} (hg : Faithful start ctx.functions s.grid)
    (hup : AllAwait start ctx.functions s.grid p) (hp : s.grid.phase p = .pending)
    (hc : s.grid.content p = .clone d offset) (h : settleClone ctx ask p d offset s = (r, t)) :
    Begun start ctx.functions p r t.grid := by
  obtain ⟨s', u, v, hs, hv, hend⟩ := settleClone_cases h
  have hmarked : Faithful start ctx.functions s'.grid := hs ▸ hg.marked hp
  have hk : s.grid.known.Within s'.grid.known := hs ▸ known_within_set (by simp [hp])
  have hl := (hg.waiting p (by simp [hp])).mono hk
  rw [hc] at hl
  have hreads : Reads start ctx.functions s'.grid p (p.move d offset) := ⟨_, hl⟩
  obtain ⟨hfaithful, hdeep⟩ := hpursue hmarked (.step (hs ▸ hup.marked hp) hreads) hv
  obtain ⟨ho, hdone, hfault⟩ := hask.settling hv
  have hl' := hl.mono ho.advance.known_within
  have hreads' := hreads.mono ho.advance.known_within
  cases hend with
  | deep _ ht =>
    refine ⟨ht ▸ hfaithful.released p, fun q name he => ?_⟩
    cases he
    have hto := TransGen.head' hreads' (hdeep q name rfl)
    exact ht ▸ reads_trans_mono (known_within_released p) hto
  | @stopped e _ he ht =>
    refine .of_shallow (ht ▸ hfaithful) ?_
    rintro e' ⟨⟩
    exact he
  | broken _ ht => exact .of_shallow (ht ▸ hfaithful) (shallow_ok ())
  | unnamed ht => exact .of_shallow (ht ▸ hfaithful) (shallow_breakdown _)
  | copied hu hnot ht =>
    refine .of_shallow (ht ▸ hfaithful.set_done (by simp [hu]) rfl (.inl ?_)) (shallow_ok ())
    refine hl'.trans (.look (known_of_done (hdone rfl)) ?_)
    generalize u.grid.content (p.move d offset) = content at hnot
    cases content with
    | formula root shift x => exact absurd rfl (hnot root shift x)
    | _ => exact .refl _
  | @formula root shift x w _ t' _ hu hsource hw hsettle ht =>
    have hlw : Leads u.grid.known (start.inquiry ctx.functions p)
        ((Content.formula root (shift.move d.reverse offset) 0.0).inquiry start
          ctx.functions p) := by
      refine hl'.trans (.look (known_of_done (hdone rfl)) ?_)
      rw [hsource]
      exact .refl _
    have hcw : w.grid.cellAt p = ⟨.formula root (shift.move d.reverse offset) 0.0, .pending⟩ := by
      rw [hw, cellAt_set_self (contains_of_phase (by simp [hu]))]
    have hfw : Faithful start ctx.functions w.grid :=
      hw ▸ hfaithful.set_waiting (by simp [hu]) (by simp) hlw
    have hupw : AllAwait start ctx.functions w.grid p :=
      hw ▸ hup.resumed hp (hs ▸ ho) (by simp [hu]) (by simp)
    have hwait : w.grid.phase p = .pending := by rw [phase, hcw]
    have hformula : w.grid.content p = .formula root (shift.move d.reverse offset) 0.0 := by
      rw [content, hcw]
    rw [ht]
    exact settleFormula_begun hask hpursue hfw hupw hwait hformula hsettle

theorem settleStep_begun {deeper : Option (Position → Evaluation Unit)}
    (hask : ∀ ask, deeper = some ask → Settles ask ∧ Pursues start ctx.functions ask)
    (hg : Faithful start ctx.functions s.grid) (hup : AllAwait start ctx.functions s.grid p)
    (h : settleStep ctx deeper p s = (r, t)) :
    Begun start ctx.functions p r t.grid ∨
      (∃ name, r = .error (.tooDeep p name)) ∧ t = s ∧ (deeper = none ∨ ctx.limit ≤ s.depth) := by
  cases settleStep_cases h with
  | done => exact .inl (.of_shallow hg (shallow_ok ()))
  | loop hp =>
    exact .inl (.of_shallow (hg.set_loop (by simp [hp]) (hup p hp)) (shallow_ok ()))
  | literal hp hlit =>
    have ht : (s.mark p .done).grid = s.grid.set p ⟨s.grid.content p, .done⟩ :=
      Progress.grid_mark s p .done
    have hl := hg.waiting p (by simp [hp])
    refine .inl (.of_shallow (ht ▸ hg.set_done (by simp [hp]) rfl (.inl ?_)) (shallow_ok ()))
    generalize s.grid.content p = content at hlit hl
    cases content with
    | formula => exact absurd rfl hlit
    | clone => exact absurd rfl hlit
    | _ => exact hl
  | beyond _ hd => exact .inr ⟨⟨_, rfl⟩, rfl, hd⟩
  | unnamed => exact .inl (.of_shallow hg (shallow_breakdown _))
  | formula ha hp hc h =>
    exact .inl (settleFormula_begun (hask _ ha).1 (hask _ ha).2 hg hup hp hc h)
  | clone ha hp hc h => exact .inl (settleClone_begun (hask _ ha).1 (hask _ ha).2 hg hup hp hc h)

theorem settleStep_sought {deeper : Option (Position → Evaluation Unit)}
    (hask : ∀ ask, deeper = some ask → Settles ask ∧ Pursues start ctx.functions ask)
    (hg : Faithful start ctx.functions s.grid) (hup : AllAwait start ctx.functions s.grid p)
    (h : settleStep ctx deeper p s = (r, t)) : Sought start ctx.functions p r t.grid := by
  obtain hbegun | ⟨⟨name, rfl⟩, rfl, _⟩ := settleStep_begun hask hg hup h
  · exact hbegun.sought
  · refine ⟨hg, fun q name' he => ?_⟩
    cases he
    exact .refl

theorem settleWithin_pursues (start : Grid) (ctx : Context) (levels : Nat) :
    Pursues start ctx.functions (settleWithin ctx levels) :=
  settleWithin_of_step (P := Pursues start ctx.functions)
    (fun _ hsettles hask => settleStep_sought fun ask ha => ⟨hsettles ask ha, hask ask ha⟩) levels

theorem settle_begun (hg : Faithful start ctx.functions s.grid)
    (hrest : ∀ a, s.grid.phase a ≠ .active) (hd : s.depth < ctx.limit)
    (h : settle ctx p s = (r, t)) : Begun start ctx.functions p r t.grid := by
  have hup : AllAwait start ctx.functions s.grid p := fun a ha => absurd ha (hrest a)
  obtain ⟨levels, hlimit⟩ := Nat.exists_eq_succ_of_ne_zero (Nat.ne_zero_of_lt hd)
  unfold settle at h
  rw [hlimit] at h
  have hask : ∀ ask, some (settleWithin ctx levels) = some ask →
      Settles ask ∧ Pursues start ctx.functions ask := by
    rintro ask ⟨⟩
    exact ⟨settleWithin_settles ctx levels, settleWithin_pursues start ctx levels⟩
  obtain hbegun | ⟨_, _, hnone | hlim⟩ := settleStep_begun hask hg hup h
  · exact hbegun
  · cases hnone
  · omega

end Evaluation

end GridCalc
