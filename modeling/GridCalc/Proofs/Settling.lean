import GridCalc.Proofs.Step

/-!
# Settling a cell

What holds of a table in any state when one cell is settled. The cell is done if that succeeds;
cells that are done stay as they are; no cell is left active that was not, unless there is a
breakdown; and a cell that lies too deep is still waiting when all that waits for it has been
unwound. The depth is in the end what it was. All this goes by induction on the levels that are
left: one level relies on the next one, and follows what a formula asks.
-/

set_option autoImplicit false

namespace GridCalc

namespace Grid

variable {α β : Type}

/-- A computation with the given result makes the second table of the first. -/
structure Orderly (g : Grid) (r : Except Stop α) (h : Grid) : Prop where
  advance : g.Advance h
  deep : ∀ q name, r = .error (.tooDeep q name) → h.phase q = .pending
  quiet : (∀ b, r ≠ .error (.breakdown b)) → ∀ q, h.phase q = .active → g.phase q = .active

variable {g h i : Grid} {p : Position}

theorem Orderly.refl {r : Except Stop α} (g : Grid) (hr : Shallow r) : Orderly g r g :=
  ⟨.refl g, fun _ _ he => absurd trivial (hr _ he), fun _ _ hq => hq⟩

theorem Orderly.trans {a : α} {r : Except Stop β} (hg : g.Orderly (.ok a : Except Stop α) h)
    (hh : h.Orderly r i) : g.Orderly r i :=
  ⟨hg.advance.trans hh.advance, hh.deep,
    fun hb q hq => hg.quiet (by simp) q (hh.quiet hb q hq)⟩

section

variable {g' h' : Grid} {v : Except Stop α} {b : β} {e : Stop}

theorem Orderly.completed (hp : g.phase p = .pending) (hg : AlikeOff p g g')
    (ho : g'.Orderly v h') (hv : ∀ x, v ≠ .error (.breakdown x)) (hh : AlikeOff p h' h)
    (hnot : h.phase p ≠ .active) : g.Orderly (.ok b : Except Stop β) h := by
  refine ⟨.around hp hg ho.advance hh, by simp, fun _ q hq => ?_⟩
  have hqp : q ≠ p := by
    rintro rfl
    exact hnot hq
  rw [phase, hh.same q hqp] at hq
  have hq' := ho.quiet hv q hq
  rwa [phase, hg.same q hqp] at hq'

theorem Orderly.released (hp : g.phase p = .pending) (hg : AlikeOff p g g')
    (ho : g'.Orderly (.error e : Except Stop α) h') (he : e.IsDeep) :
    g.Orderly (.error e : Except Stop β) (h'.released p) := by
  have hsame := alikeOff_released h' p
  refine ⟨.around hp hg ho.advance hsame, ?_, fun _ q hq => ?_⟩
  · rintro q name ⟨⟩
    have hq := ho.deep q name rfl
    by_cases hqp : q = p
    · subst hqp
      rw [Grid.released, if_neg (by simp [hq]), hq]
    · rw [phase, hsame.same q hqp]
      exact hq
  · have hqp : q ≠ p := by
      rintro rfl
      exact phase_released_ne h' q hq
    rw [phase, hsame.same q hqp] at hq
    have hv : ∀ x, (.error e : Except Stop α) ≠ .error (.breakdown x) := by
      rintro x ⟨⟩
      exact he
    have hq' := ho.quiet hv q hq
    rwa [phase, hg.same q hqp] at hq'

theorem Orderly.broken (hp : g.phase p = .pending) (hg : AlikeOff p g g') (ho : g'.Orderly v h')
    (x : Breakdown) : g.Orderly (.error (.breakdown x) : Except Stop β) h' :=
  ⟨.around hp hg ho.advance (.refl p h'), by simp, fun hb => absurd rfl (hb x)⟩

end

end Grid

namespace Evaluation
open Grid

variable {ctx : Context} {ask : Position → Evaluation Unit} {p : Position} {s t : Progress}
  {r : Except Stop Unit}

/-- The cell at `p` has been asked for, with the given result. -/
structure Settling (g : Grid) (p : Position) (r : Except Stop Unit) (h : Grid) : Prop where
  orderly : g.Orderly r h
  done : r = .ok () → h.phase p = .done
  noFault : ∀ f, r ≠ .error (.fault f)

structure Settles (ask : Position → Evaluation Unit) : Prop where
  settling : ∀ {p s r t}, ask p s = (r, t) → Settling s.grid p r t.grid
  depth : ∀ p, KeepsDepth (ask p)

theorem Settles.asks (hask : Settles ask) : Asks ask :=
  ⟨fun h => (hask.settling h).orderly.advance.alike, hask.depth,
    fun h => (hask.settling h).done rfl⟩

theorem run_orderly {α : Type} (hask : Settles ask) {q : Inquiry α} {g h : Grid}
    {r : Except Stop α} (hq : q.Run ask g r h) : g.Orderly r h := by
  induction hq with
  | done hr => exact .refl _ hr
  | stopped hs hp =>
    have ho := (hask.settling hp).orderly
    rw [hs] at ho
    refine ⟨ho.advance, fun q name he => ho.deep q name ?_, fun hb => ho.quiet fun b he => ?_⟩
    · cases he
      rfl
    · cases he
      exact hb b rfl
  | looked hs hp _ _ ih => exact (hs ▸ (hask.settling hp).orderly).trans ih

theorem rootValue_orderly (hask : Settles ask) {functions : Functions}
    {root : NodeId} {shift : Position} {v : Except Stop Float}
    (h : rootValue ask functions shift root s = (v, t)) :
    s.grid.Orderly v t.grid ∧ t.depth = s.depth := by
  obtain ⟨hrun, hdepth⟩ := follows_rootValue hask.asks root s v t (.refl s.grid) h
  exact ⟨run_orderly hask hrun, hdepth⟩

theorem phase_marked {g : Grid} (hp : g.phase p = .pending) :
    (g.marked p).phase p = .active := by
  rw [marked, phase_set_self (contains_of_phase (by simp [hp]))]

theorem phase_finished {g h : Grid} {c : Cell} (hp : g.phase p = .active) (ha : g.Advance h)
    (hc : c.phase = .done) : (h.finished p c).phase p = .done := by
  by_cases hh : h.phase p = .active
  · rw [finished, if_pos hh, phase_set_self (contains_of_phase (by simp [hh])), hc]
  · rw [finished, if_neg hh, phase, ha.done_of_not_active hp hh]
    rfl

theorem settleFormula_settling (hask : Settles ask) {root : NodeId} {shift : Position}
    (hp : s.grid.phase p = .pending) (h : settleFormula ctx ask p root shift s = (r, t)) :
    Settling s.grid p r t.grid := by
  obtain ⟨s', u, v, hs, hv, hend⟩ := settleFormula_cases h
  obtain ⟨ho, _⟩ := rootValue_orderly hask hv
  have hmark : AlikeOff p s.grid s'.grid := hs ▸ alikeOff_set s.grid p _
  have hactive : s'.grid.phase p = .active := hs ▸ phase_marked hp
  generalize t.grid = h at hend
  cases hend with
  | @settled v c hc =>
    have hdone : (u.grid.finished p ⟨c, .done⟩).phase p = .done :=
      phase_finished hactive ho.advance rfl
    have hv' : ∀ x, v ≠ .error (.breakdown x) := by
      rintro x rfl
      cases hc
    exact ⟨.completed hp hmark ho hv' (alikeOff_finished _ p _) (by simp [hdone]),
      fun _ => hdone, by simp⟩
  | deep he =>
    refine ⟨.released hp hmark ho he, by simp, ?_⟩
    rintro f ⟨⟩
    exact he
  | broken => exact ⟨.broken hp hmark ho _, by simp, by simp⟩

theorem settleClone_settling (hask : Settles ask) {d : Direction} {offset : Int}
    (hp : s.grid.phase p = .pending) (h : settleClone ctx ask p d offset s = (r, t)) :
    Settling s.grid p r t.grid := by
  obtain ⟨s', u, v, hs, hv, hend⟩ := settleClone_cases h
  obtain ⟨ho, _, hfault⟩ := hask.settling hv
  have hmark : AlikeOff p s.grid s'.grid := hs ▸ alikeOff_set s.grid p _
  have hactive : s'.grid.phase p = .active := hs ▸ phase_marked hp
  cases hend with
  | deep he ht =>
    rw [ht]
    exact ⟨.released hp hmark ho he, by simp, hfault⟩
  | @stopped e _ he ht =>
    rw [ht]
    cases e with
    | tooDeep q name => exact absurd trivial he
    | fault f => exact absurd rfl (hfault f)
    | breakdown b => exact ⟨.broken hp hmark ho b, by simp, by simp⟩
  | broken hnot ht =>
    rw [ht]
    have hloop := ho.advance.done_of_not_active hactive hnot
    refine ⟨.completed hp hmark ho (by simp) (.refl p u.grid) hnot, fun _ => ?_, by simp⟩
    rw [phase, hloop]
    rfl
  | unnamed ht =>
    rw [ht]
    exact ⟨.broken hp hmark ho _, by simp, by simp⟩
  | copied hu _ ht =>
    have hdone : t.grid.phase p = .done := by
      rw [ht, phase_set_self (contains_of_phase (by simp [hu]))]
    have hset : AlikeOff p u.grid t.grid := ht ▸ alikeOff_set u.grid p _
    exact ⟨.completed hp hmark ho (by simp) hset (by simp [hdone]), fun _ => hdone, by simp⟩
  | @formula root shift x w _ t' _ hu _ hw hsettle ht =>
    have hwait : w.grid.phase p = .pending := by
      rw [hw, phase_set_self (contains_of_phase (by simp [hu]))]
    have hset : AlikeOff p u.grid w.grid := hw ▸ alikeOff_set u.grid p _
    have hcopy : s.grid.Orderly (.ok () : Except Stop Unit) w.grid :=
      .completed hp hmark ho (by simp) hset (by simp [hwait])
    obtain ⟨ho', hd', hf'⟩ := settleFormula_settling hask hwait hsettle
    rw [ht]
    exact ⟨hcopy.trans ho', hd', hf'⟩

theorem settleStep_settling {deeper : Option (Position → Evaluation Unit)}
    (hask : ∀ ask, deeper = some ask → Settles ask) (h : settleStep ctx deeper p s = (r, t)) :
    Settling s.grid p r t.grid := by
  cases settleStep_cases h with
  | done hp => exact ⟨.refl _ (shallow_ok ()), fun _ => hp, by simp⟩
  | @loop name hp _ =>
    have ht : ((s.note (.cycle name)).put p (.ofFault .loop)).grid =
        s.grid.set p (.ofFault .loop) := rfl
    have hc : s.grid.contains p := contains_of_phase (by simp [hp])
    have hdone : (s.grid.set p (.ofFault .loop)).phase p = .done := by rw [phase_set_self hc]; rfl
    refine ⟨⟨ht ▸ advance_set_loop (by simp [hp]), by simp, fun _ q hq => ?_⟩,
      fun _ => ht ▸ hdone, by simp⟩
    rw [ht] at hq
    by_cases hqp : q = p
    · subst hqp
      simp [hdone] at hq
    · rwa [phase_set_ne hqp] at hq
  | literal hp _ =>
    have ht := Progress.grid_mark s p .done
    have hc : s.grid.contains p := contains_of_phase (by simp [hp])
    have hdone : (s.mark p .done).grid.phase p = .done := by rw [ht, phase_set_self hc]
    have hset : AlikeOff p s.grid (s.mark p .done).grid := ht ▸ alikeOff_set s.grid p _
    refine ⟨⟨advance_of_alikeOff hset hp, by simp, fun _ q hq => ?_⟩, fun _ => hdone, by simp⟩
    by_cases hqp : q = p
    · subst hqp
      simp [hdone] at hq
    · rwa [phase, hset.same q hqp] at hq
  | beyond hp _ =>
    refine ⟨⟨.refl _, ?_, fun _ _ hq => hq⟩, by simp, by simp⟩
    rintro q name ⟨⟩
    exact hp
  | unnamed => exact ⟨.refl _ (shallow_breakdown _), by simp, by simp⟩
  | formula ha hp _ h => exact settleFormula_settling (hask _ ha) hp h
  | clone ha hp _ h => exact settleClone_settling (hask _ ha) hp h

theorem KeepsDepth.bind {α β : Type} {x : Evaluation α} {f : α → Evaluation β}
    (hx : KeepsDepth x) (hf : ∀ a, KeepsDepth (f a)) : KeepsDepth (x >>= f) := by
  intro s
  have hs := hx s
  rcases h : x s with ⟨v, u⟩
  rw [h] at hs
  cases v with
  | ok a => rw [Action.bind_ok h, hf a u, hs]
  | error e => rw [Action.bind_error h, hs]

theorem keepsDepth_ofBreakdown {α : Type} (x : Except Breakdown α) :
    KeepsDepth (ofBreakdown x) := by
  intro s
  cases x <;> rfl

theorem keepsDepth_nested {α : Type} {x : Evaluation α} (hx : KeepsDepth x) :
    KeepsDepth (nested x) := by
  intro s
  show (x _).2.depth - 1 = s.depth
  rw [hx]
  rfl

theorem keepsDepth_attempt {x : Evaluation Unit} (hx : KeepsDepth x) :
    KeepsDepth (attempt p x) := by
  intro s
  have hs := keepsDepth_nested hx (s.mark p .active)
  unfold attempt
  rcases h : nested x (s.mark p .active) with ⟨v, u⟩
  rw [h, Progress.depth_mark] at hs
  cases v with
  | ok a => exact hs
  | error e =>
    cases e with
    | tooDeep q name => exact (Progress.depth_release u p).trans hs
    | fault f => exact hs
    | breakdown b => exact hs

theorem keepsDepth_settleFormula (hask : Settles ask) {root : NodeId} {shift : Position} :
    KeepsDepth (settleFormula ctx ask p root shift) := by
  refine keepsDepth_attempt fun s => ?_
  rcases hv : rootValue ask ctx.functions shift root s with ⟨v, u⟩
  have hd := (rootValue_orderly hask hv).2
  rw [Manner.value_chained, hv]
  cases v with
  | ok x => exact (Progress.depth_finish u p _).trans hd
  | error e =>
    cases e with
    | fault f => exact (Progress.depth_finish u p _).trans hd
    | tooDeep q name => exact hd
    | breakdown b => exact hd

theorem keepsDepth_settleClone (hask : Settles ask) {d : Direction} {offset : Int} :
    KeepsDepth (settleClone ctx ask p d offset) := by
  refine keepsDepth_attempt ((hask.depth _).bind fun _ => ?_)
  apply KeepsDepth.bind (fun _ => rfl)
  intro active
  split
  · apply KeepsDepth.bind (fun _ => rfl)
    intro seen
    apply (keepsDepth_ofBreakdown p.name).bind
    intro name
    apply (keepsDepth_ofBreakdown _).bind
    intro source
    apply KeepsDepth.bind (fun _ => rfl)
    intro _
    split
    · exact KeepsDepth.bind (fun _ => rfl) fun _ => keepsDepth_settleFormula hask
    · exact fun _ => rfl
  · exact fun _ => rfl

theorem settleStep_settles {deeper : Option (Position → Evaluation Unit)}
    (hask : ∀ ask, deeper = some ask → Settles ask) : Settles (settleStep ctx deeper) := by
  refine ⟨settleStep_settling hask, fun p s => ?_⟩
  rcases h : settleStep ctx deeper p s with ⟨r, t⟩
  cases settleStep_cases h with
  | literal => exact Progress.depth_mark s p .done
  | formula ha _ _ h => exact (keepsDepth_settleFormula (hask _ ha)).depth h
  | clone ha _ _ h => exact (keepsDepth_settleClone (hask _ ha)).depth h
  | _ => rfl

theorem settleWithin_settles (ctx : Context) (levels : Nat) :
    Settles (settleWithin ctx levels) := by
  induction levels with
  | zero => exact settleStep_settles (by simp)
  | succ levels ih =>
    apply settleStep_settles
    rintro ask ⟨⟩
    exact ih

theorem settle_settles (ctx : Context) : Settles (settle ctx) := settleWithin_settles ctx ctx.limit

/-- What each step takes over from the level below holds at every number of levels. -/
theorem settleWithin_of_step {P : (Position → Evaluation Unit) → Prop}
    (hstep : ∀ deeper, (∀ ask, deeper = some ask → Settles ask) →
      (∀ ask, deeper = some ask → P ask) → P (settleStep ctx deeper)) (levels : Nat) :
    P (settleWithin ctx levels) := by
  induction levels with
  | zero => exact hstep none (by simp) (by simp)
  | succ levels ih =>
    apply hstep
    · rintro ask ⟨⟩
      exact settleWithin_settles ctx levels
    · rintro ask ⟨⟩
      exact ih

end Evaluation

end GridCalc
