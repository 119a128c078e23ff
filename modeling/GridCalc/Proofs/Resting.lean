import GridCalc.Proofs.Pursuit
import GridCalc.Proofs.Reading
import GridCalc.Proofs.Restart

/-!
# Between evaluations

A table at rest is faithful to the table as it was read, and nothing is under way. Each of the
waiting cells of a restart waits for all that stand before it in the list, so a cell out of reach
that is in the list already lies on a loop. Hence whole evaluations take tables at rest to tables
at rest.
-/

set_option autoImplicit false

namespace GridCalc.Evaluation
open Grid Relation

structure Resting (start : Grid) (functions : Functions) (s : Progress) : Prop where
  faithful : Faithful start functions s.grid
  quiet : ∀ p, s.grid.phase p ≠ .active
  depth : s.depth = 0

/-- Each waiting cell waits for all that stand before it. -/
def Queued (start : Grid) (functions : Functions) (g : Grid) (waiting : List Position) : Prop :=
  waiting.Pairwise fun p q => TransGen (Reads start functions g) q p

variable {start g h : Grid} {functions : Functions} {ctx : Context} {s t : Progress}
  {p : Position}

theorem Queued.mono {waiting : List Position} (hk : g.known.Within h.known)
    (hq : Queued start functions g waiting) : Queued start functions h waiting :=
  hq.imp (reads_trans_mono hk)

theorem Queued.singleton (start g : Grid) (functions : Functions) (p : Position) :
    Queued start functions g [p] := List.pairwise_singleton _ p

theorem resting_of_fresh (hg : start.Fresh) (log : Array Event) :
    Resting start functions { grid := start, log } := by
  refine ⟨hg.faithful functions, fun p => ?_, rfl⟩
  show start.phase p ≠ .active
  have hc := hg p
  rw [phase]
  generalize start.cellAt p = c at hc
  cases hc with
  | pending c => simp
  | fault f => simp [Cell.ofFault]

theorem Resting.settle {r : Except Stop Unit} (hs : Resting start ctx.functions s)
    (hlimit : 1 ≤ ctx.limit) (h : settle ctx p s = (r, t)) (hr : ∀ b, r ≠ .error (.breakdown b)) :
    Begun start ctx.functions p r t.grid ∧ Resting start ctx.functions t := by
  have hdepth := hs.depth
  have hbegun := settle_begun hs.faithful hs.quiet (by omega) h
  have ho := ((settle_settles ctx).settling h).orderly
  refine ⟨hbegun, hbegun.faithful, fun q hq => hs.quiet q (ho.quiet hr q hq), ?_⟩
  rw [((settle_settles ctx).depth p).depth h, hdepth]

theorem restartStep_resting {rest waiting : List Position} (hlimit : 1 ≤ ctx.limit)
    (hs : Resting start ctx.functions s) (hq : Queued start ctx.functions s.grid (p :: rest))
    (h : restartStep ctx (p :: rest) s = (.ok waiting, t)) :
    Resting start ctx.functions t ∧ Queued start ctx.functions t.grid waiting := by
  have hk := (restartStep_progressed h).advance.known_within
  generalize hr : Except.ok waiting = r at h
  cases restartStep_cases h with
  | settled hu =>
    cases hr
    exact ⟨(hs.settle hlimit hu (by simp)).2, (hq.mono hk).of_cons⟩
  | @looped q name u _ hu hin ht hd =>
    cases hr
    obtain ⟨hbegun, hrest⟩ := hs.settle hlimit hu (by simp)
    obtain ⟨ho, _, _⟩ := (settle_settles ctx).settling hu
    have hwait : u.grid.phase q ≠ .done := by simp [ho.deep q name rfl]
    have hto := hbegun.deep q name rfl
    have hloop : TransGen (Reads start ctx.functions u.grid) q q := by
      rcases List.mem_cons.1 hin with rfl | hin
      · exact hto
      · have hfrom := List.rel_of_pairwise_cons hq hin
        exact (reads_trans_mono ho.advance.known_within hfrom).trans hto
    refine ⟨⟨ht ▸ hrest.faithful.set_loop hwait hloop, fun x hx => ?_, hd.trans hrest.depth⟩,
      hq.mono hk⟩
    by_cases hxq : x = q
    · subst hxq
      rw [ht, phase_set_self (contains_of_phase hwait)] at hx
      cases hx
    · rw [ht, phase_set_ne hxq] at hx
      exact hrest.quiet x hx
  | @resumed q name u _ hu hin ht hd =>
    cases hr
    obtain ⟨hbegun, hrest⟩ := hs.settle hlimit hu (by simp)
    have hto := hbegun.deep q name rfl
    rw [← ht] at hto
    have hq' := hq.mono hk
    refine ⟨⟨ht ▸ hrest.faithful, ht ▸ hrest.quiet, hd.trans hrest.depth⟩, ?_⟩
    refine List.pairwise_cons.2 ⟨fun x hx => ?_, hq'⟩
    rcases List.mem_cons.1 hx with rfl | hx
    · exact hto
    · exact (List.rel_of_pairwise_cons hq' hx).trans hto
  | stopped => cases hr

theorem restart_resting {n : Nat} {waiting : List Position} (hlimit : 1 ≤ ctx.limit)
    (hs : Resting start ctx.functions s) (hq : Queued start ctx.functions s.grid waiting)
    (h : restart ctx n waiting s = (.ok (), t)) : Resting start ctx.functions t := by
  induction n generalizing waiting s with
  | zero =>
    cases h
    exact hs
  | succ n ih =>
    cases waiting with
    | nil =>
      cases h
      exact hs
    | cons p rest =>
      rw [restart_cons] at h
      obtain ⟨waiting', u, hu, h⟩ := Action.ok_of_bind h
      obtain ⟨hs', hq'⟩ := restartStep_resting hlimit hs hq hu
      exact ih hs' hq' h

theorem ensure_resting (hlimit : 1 ≤ ctx.limit) (hs : Resting start ctx.functions s)
    (h : ensure ctx p s = (.ok (), t)) : Resting start ctx.functions t :=
  restart_resting hlimit hs (.singleton start s.grid ctx.functions p) h

theorem ensureAll_resting {ps : List Position} (hlimit : 1 ≤ ctx.limit)
    (hs : Resting start ctx.functions s) (h : ensureAll ctx ps s = (.ok (), t)) :
    Resting start ctx.functions t := by
  induction ps generalizing s with
  | nil =>
    cases h
    exact hs
  | cons p ps ih =>
    rw [ensureAll_cons] at h
    obtain ⟨_, u, hu, h⟩ := Action.ok_of_bind h
    exact ih (ensure_resting hlimit hs hu) h

theorem evaluate_resting (hlimit : 1 ≤ ctx.limit) (hs : Resting start ctx.functions s)
    (h : evaluate ctx s = (.ok (), t)) : Resting start ctx.functions t :=
  ensureAll_resting hlimit hs h

end GridCalc.Evaluation
