import GridCalc.Evaluation.Settle
import GridCalc.Proofs.Run

/-!
# Steps of settling

All that settling one cell can do, case by case. A cell that is done is left alone and one that is
active becomes a loop; a literal is done at once; a formula or a clone is begun, or lies too deep.
What has been begun ends in one of few ways: it is settled, unless it has become a loop meanwhile,
it is released to wait again, or it is left as it is by a breakdown.
-/

set_option autoImplicit false

namespace GridCalc.Evaluation
open GridCalc Inquiry

variable {ctx : Context} {ask : Position → Evaluation Unit} {p : Position} {s t : Progress}
  {r : Except Stop Unit}

inductive FormulaEnd (p : Position) (root : NodeId) (shift : Position) (g : Grid) :
    Except Stop Float → Except Stop Unit → Grid → Prop
  | settled {v : Except Stop Float} {c : Content} : settledFormula root shift v = .ok c →
      FormulaEnd p root shift g v (.ok ()) (g.finished p ⟨c, .done⟩)
  | deep {e : Stop} : e.IsDeep → FormulaEnd p root shift g (.error e) (.error e) (g.released p)
  | broken {b : Breakdown} :
      FormulaEnd p root shift g (.error (.breakdown b)) (.error (.breakdown b)) g

/-- How the work on a clone ends, for the result of asking for its source. -/
inductive CloneEnd (ctx : Context) (ask : Position → Evaluation Unit) (p : Position)
    (d : Direction) (offset : Int) (u : Progress) :
    Except Stop Unit → Except Stop Unit → Progress → Prop
  | deep {e : Stop} {t : Progress} : e.IsDeep → t.grid = u.grid.released p →
      CloneEnd ctx ask p d offset u (.error e) (.error e) t
  | stopped {e : Stop} {t : Progress} : ¬ e.IsDeep → t.grid = u.grid →
      CloneEnd ctx ask p d offset u (.error e) (.error e) t
  | broken {t : Progress} : u.grid.phase p ≠ .active → t.grid = u.grid →
      CloneEnd ctx ask p d offset u (.ok ()) (.ok ()) t
  | unnamed {b : Breakdown} {t : Progress} : t.grid = u.grid →
      p.name = .error b ∨ (p.move d offset).name = .error b →
      CloneEnd ctx ask p d offset u (.ok ()) (.error (.breakdown b)) t
  | copied {t : Progress} : u.grid.phase p = .active →
      (∀ root shift x, u.grid.content (p.move d offset) ≠ .formula root shift x) →
      t.grid = u.grid.set p ⟨u.grid.content (p.move d offset), .done⟩ →
      CloneEnd ctx ask p d offset u (.ok ()) (.ok ()) t
  | formula {root : NodeId} {shift : Position} {x : Float} {w t t' : Progress}
      {r : Except Stop Unit} : u.grid.phase p = .active →
      u.grid.content (p.move d offset) = .formula root shift x →
      w.grid = u.grid.set p ⟨.formula root (shift.move d.reverse offset) 0.0, .pending⟩ →
      settleFormula ctx ask p root (shift.move d.reverse offset) w = (r, t') →
      t.grid = t'.grid →
      CloneEnd ctx ask p d offset u (.ok ()) r t

theorem attempt_cases {x : Evaluation Unit} (h : attempt p x s = (r, t)) :
    ∃ s' u, s'.grid = s.grid.marked p ∧ x s' = (r, u) ∧
      ((∃ e, r = .error e ∧ e.IsDeep ∧ t.grid = u.grid.released p) ∨
        Shallow r ∧ t.grid = u.grid) := by
  unfold attempt nested at h
  obtain ⟨s', hs', hg⟩ : ∃ s' : Progress, s' = { s.mark p .active with
      depth := (s.mark p .active).depth + 1
      deepest := max (s.mark p .active).deepest ((s.mark p .active).depth + 1) } ∧
      s'.grid = s.grid.marked p := ⟨_, rfl, Progress.grid_mark s p .active⟩
  rw [← hs'] at h
  rcases hx : x s' with ⟨r', u⟩
  rw [hx] at h
  refine ⟨s', u, hg, ?_⟩
  cases r' with
  | ok a =>
    cases h
    exact ⟨hx, .inr ⟨shallow_ok a, rfl⟩⟩
  | error e =>
    cases e with
    | tooDeep q name =>
      cases h
      exact ⟨hx, .inl ⟨_, rfl, trivial, Progress.grid_release _ p⟩⟩
    | fault f =>
      cases h
      exact ⟨hx, .inr ⟨shallow_fault f, rfl⟩⟩
    | breakdown b =>
      cases h
      exact ⟨hx, .inr ⟨shallow_breakdown b, rfl⟩⟩

theorem settleFormula_cases {root : NodeId} {shift : Position}
    (h : settleFormula ctx ask p root shift s = (r, t)) :
    ∃ s' u v, s'.grid = s.grid.marked p ∧ rootValue ask ctx.functions shift root s' = (v, u) ∧
      FormulaEnd p root shift u.grid v r t.grid := by
  obtain ⟨s', w, hs, hw, ht⟩ := attempt_cases h
  rcases hv : rootValue ask ctx.functions shift root s' with ⟨v, u⟩
  rw [Manner.value_chained, hv] at hw
  refine ⟨s', u, v, hs, hv, ?_⟩
  cases v with
  | ok x =>
    cases hw
    obtain ⟨e, he, _⟩ | ⟨_, ht⟩ := ht
    · cases he
    · rw [ht, Progress.grid_finish]
      exact .settled rfl
  | error e =>
    cases e with
    | fault f =>
      cases hw
      obtain ⟨e, he, _⟩ | ⟨_, ht⟩ := ht
      · cases he
      · rw [ht, Progress.grid_finish]
        exact .settled rfl
    | tooDeep q name =>
      cases hw
      obtain ⟨e, _, _, ht⟩ | ⟨hr, _⟩ := ht
      · rw [ht]
        exact .deep trivial
      · exact absurd trivial (hr _ rfl)
    | breakdown b =>
      cases hw
      obtain ⟨e, he, hd, _⟩ | ⟨_, ht⟩ := ht
      · cases he
        cases hd
      · rw [ht]
        exact .broken

theorem settleFormula_released {root : NodeId} {shift : Position} {e : Stop}
    (h : settleFormula ctx ask p root shift s = (.error e, t)) (he : e.IsDeep) :
    t.grid.released p = t.grid := by
  obtain ⟨_, u, v, _, _, hend⟩ := settleFormula_cases h
  generalize hr : Except.error e = r at hend
  generalize ht : t.grid = i at hend
  cases hend with
  | settled => cases hr
  | deep =>
    rw [Grid.released, if_neg (Grid.phase_released_ne u.grid p)]
  | broken =>
    cases hr
    cases he

theorem ofBreakdown_cases {α β : Type} {x : Except Breakdown α} {f : α → Evaluation β}
    {r : Except Stop β} (h : (ofBreakdown x >>= f) s = (r, t)) :
    (∃ b, x = .error b ∧ r = .error (.breakdown b) ∧ t = s) ∨
      ∃ a, x = .ok a ∧ f a s = (r, t) := by
  cases x with
  | ok a => exact .inr ⟨a, rfl, h⟩
  | error b =>
    cases h
    exact .inl ⟨b, rfl, rfl, rfl⟩

theorem settleClone_cases {d : Direction} {offset : Int}
    (h : settleClone ctx ask p d offset s = (r, t)) :
    ∃ s' u v, s'.grid = s.grid.marked p ∧ ask (p.move d offset) s' = (v, u) ∧
      CloneEnd ctx ask p d offset u v r t := by
  obtain ⟨s', w, hs, hw, ht⟩ := attempt_cases h
  rcases hv : ask (p.move d offset) s' with ⟨v, u⟩
  refine ⟨s', u, v, hs, hv, ?_⟩
  cases v with
  | error e =>
    rw [Action.bind_error hv] at hw
    cases hw
    obtain ⟨e', he, hd, ht⟩ | ⟨hr, ht⟩ := ht
    · cases he
      exact .deep hd ht
    · exact .stopped (hr e rfl) ht
  | ok a =>
    have hact : isActive p u = (.ok (u.isActive p), u) := rfl
    rw [Action.bind_ok hv, Action.bind_ok hact] at hw
    by_cases ha : u.isActive p
    · have hseen : cellAt (p.move d offset) u = (.ok (u.grid.cellAt (p.move d offset)), u) := rfl
      rw [if_pos ha, Action.bind_ok hseen] at hw
      obtain ⟨b, hname, rfl, rfl⟩ | ⟨name, _, hw⟩ := ofBreakdown_cases hw
      · obtain ⟨e, he, hd, _⟩ | ⟨_, ht⟩ := ht
        · cases he
          cases hd
        · exact .unnamed ht (.inl hname)
      obtain ⟨b, hname, rfl, rfl⟩ | ⟨source, _, hw⟩ := ofBreakdown_cases hw
      · obtain ⟨e, he, hd, _⟩ | ⟨_, ht⟩ := ht
        · cases he
          cases hd
        · exact .unnamed ht (.inr hname)
      have hp := Progress.isActive_iff.1 ha
      rcases hc : u.grid.cellAt (p.move d offset) with ⟨content, phase⟩
      have hcontent : u.grid.content (p.move d offset) = content := by rw [Grid.content, hc]
      rw [hc] at hw
      cases content with
      | formula root shift x =>
        have hw' : settleFormula ctx ask p root (shift.move d.reverse offset)
            ((u.note (.cloned name source "EXPRESSION")).put p
              ⟨.formula root (shift.move d.reverse offset) 0.0, .pending⟩) = (r, w) := hw
        refine .formula hp hcontent rfl hw' ?_
        obtain ⟨e, rfl, hd, ht⟩ | ⟨_, ht⟩ := ht
        · rw [ht, settleFormula_released hw' hd]
        · exact ht
      | _ =>
        cases hw
        obtain ⟨e, he, _⟩ | ⟨_, ht⟩ := ht
        · cases he
        · refine .copied hp ?_ ?_
          · rw [hcontent]
            simp
          · rw [hcontent]
            exact ht
    · rw [if_neg ha] at hw
      cases hw
      obtain ⟨e, he, _⟩ | ⟨_, ht⟩ := ht
      · cases he
      · exact .broken (fun hp => ha (Progress.isActive_iff.2 hp)) ht

/-- One step of settling the cell at `p`, one level further in if there is a level left. -/
inductive Step (ctx : Context) (deeper : Option (Position → Evaluation Unit)) (p : Position)
    (s : Progress) : Except Stop Unit → Progress → Prop
  | done : s.grid.phase p = .done → Step ctx deeper p s (.ok ()) s
  | loop {name : String} : s.grid.phase p = .active → p.name = .ok name →
      Step ctx deeper p s (.ok ()) ((s.note (.cycle name)).put p (.ofFault .loop))
  | literal : s.grid.phase p = .pending → ¬ (s.grid.content p).isDeferred →
      Step ctx deeper p s (.ok ()) (s.mark p .done)
  | beyond {name : String} : s.grid.phase p = .pending → deeper = none ∨ ctx.limit ≤ s.depth →
      p.name = .ok name → Step ctx deeper p s (.error (.tooDeep p name)) s
  | unnamed {b : Breakdown} : p.name = .error b →
      s.grid.phase p = .active ∨ (s.grid.content p).isDeferred →
      Step ctx deeper p s (.error (.breakdown b)) s
  | formula {ask : Position → Evaluation Unit} {root : NodeId} {shift : Position} {x : Float}
      {r : Except Stop Unit} {t : Progress} : deeper = some ask → s.grid.phase p = .pending →
      s.grid.content p = .formula root shift x →
      settleFormula ctx ask p root shift s = (r, t) → s.depth < ctx.limit → Step ctx deeper p s r t
  | clone {ask : Position → Evaluation Unit} {d : Direction} {offset : Int}
      {r : Except Stop Unit} {t : Progress} : deeper = some ask → s.grid.phase p = .pending →
      s.grid.content p = .clone d offset →
      settleClone ctx ask p d offset s = (r, t) → s.depth < ctx.limit → Step ctx deeper p s r t

theorem outOfReach_cases {deeper : Option (Position → Evaluation Unit)}
    (hp : s.grid.phase p = .pending) (hc : (s.grid.content p).isDeferred)
    (hd : deeper = none ∨ ctx.limit ≤ s.depth) (h : outOfReach p s = (r, t)) :
    Step ctx deeper p s r t := by
  obtain ⟨b, hname, rfl, rfl⟩ | ⟨name, hname, h⟩ := ofBreakdown_cases h
  · exact .unnamed hname (.inr hc)
  · cases h
    exact .beyond hp hd hname

theorem settleStep_done {deeper : Option (Position → Evaluation Unit)}
    (hp : s.grid.phase p = .done) : settleStep ctx deeper p s = (.ok (), s) := by
  have hget : (Action.get : Evaluation Progress) s = (.ok s, s) := rfl
  unfold settleStep settleStepBy
  rw [Action.bind_ok hget]
  by_cases hin : s.grid.contains p
  · rw [Grid.cell?_of_contains hin]
    rw [Grid.phase] at hp
    dsimp only
    rw [hp]
    rfl
  · rw [Grid.cell?, if_neg hin]
    rfl

theorem settleStep_literal {deeper : Option (Position → Evaluation Unit)}
    (hp : s.grid.phase p = .pending) (hc : ¬ (s.grid.content p).isDeferred) :
    settleStep ctx deeper p s = (.ok (), s.mark p .done) := by
  have hget : (Action.get : Evaluation Progress) s = (.ok s, s) := rfl
  have hin : s.grid.contains p := Grid.contains_of_phase (by simp [hp])
  unfold settleStep settleStepBy
  rw [Action.bind_ok hget, Grid.cell?_of_contains hin]
  rw [Grid.phase] at hp
  rw [Grid.content] at hc
  dsimp only
  rw [hp]
  dsimp only
  rw [if_pos (by simp [hc])]
  rfl

theorem settleWithin_done {levels : Nat} (hp : s.grid.phase p = .done) :
    settleWithin ctx levels p s = (.ok (), s) := by
  cases levels with
  | zero => exact settleStep_done hp
  | succ levels => exact settleStep_done hp

theorem settle_done (hp : s.grid.phase p = .done) : settle ctx p s = (.ok (), s) :=
  settleWithin_done hp

theorem settleStep_cases {deeper : Option (Position → Evaluation Unit)}
    (h : settleStep ctx deeper p s = (r, t)) : Step ctx deeper p s r t := by
  have hget : (Action.get : Evaluation Progress) s = (.ok s, s) := rfl
  unfold settleStep settleStepBy at h
  rw [Action.bind_ok hget] at h
  by_cases hin : s.grid.contains p
  · rw [Grid.cell?_of_contains hin] at h
    rcases hc : s.grid.cellAt p with ⟨content, phase⟩
    have hphase : s.grid.phase p = phase := by rw [Grid.phase, hc]
    have hcontent : s.grid.content p = content := by rw [Grid.content, hc]
    rw [hc] at h
    cases phase with
    | done =>
      cases h
      exact .done hphase
    | active =>
      obtain ⟨b, hname, rfl, rfl⟩ | ⟨name, hname, h⟩ := ofBreakdown_cases h
      · exact .unnamed hname (.inl hphase)
      · cases h
        exact .loop hphase hname
    | pending =>
      dsimp only at h
      by_cases hdef : content.isDeferred
      · rw [if_neg (by simp [hdef])] at h
        by_cases hlim : ctx.limit ≤ s.depth
        · rw [if_pos hlim] at h
          exact outOfReach_cases hphase (by rwa [hcontent]) (.inr hlim) h
        · rw [if_neg hlim] at h
          cases deeper with
          | none => exact outOfReach_cases hphase (by rwa [hcontent]) (.inl rfl) h
          | some ask =>
            cases content with
            | formula root shift x => exact .formula rfl hphase hcontent h (Nat.lt_of_not_le hlim)
            | clone d offset => exact .clone rfl hphase hcontent h (Nat.lt_of_not_le hlim)
            | _ => cases hdef
      · rw [if_pos (by simp [hdef])] at h
        cases h
        exact .literal hphase (by rwa [hcontent])
  · rw [Grid.cell?, if_neg hin] at h
    cases h
    exact .done (by rw [Grid.phase, Grid.cellAt_of_not_contains hin]; rfl)

end GridCalc.Evaluation
