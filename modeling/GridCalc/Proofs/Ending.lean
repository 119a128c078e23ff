import GridCalc.Proofs.Restart

/-!
# That restarts end

The loop that settles a cell goes on as long as cells are waiting, and nothing but that ends it: a
bound on the number of its steps follows from what each of them does. A step takes a cell that is
done from the list, puts a cell that is not done in front of it, or breaks a loop at a cell that is
not done. This holds in every state of a table, also in one that a breakdown has left with cells
under way.
-/

set_option autoImplicit false

namespace GridCalc.Evaluation
open GridCalc Grid

variable {ctx : Context} {s t u : Progress} {p : Position} {waiting waiting' : List Position}

inductive Turn (ctx : Context) (waiting : List Position) (s : Progress) :
    List Position → Progress → Prop
  | left {p : Position} {rest : List Position} {t : Progress} : waiting = p :: rest →
      settle ctx p s = (.ok (), t) → t.grid.phase p = .done → Turn ctx waiting s rest t
  | joined {p q : Position} {rest : List Position} {name : String} {u t : Progress} :
      waiting = p :: rest → settle ctx p s = (.error (.tooDeep q name), u) → q ∉ waiting →
      t.grid = u.grid → t.grid.contains q → t.grid.phase q ≠ .done →
      Turn ctx waiting s (q :: waiting) t
  | broken {p q : Position} {rest : List Position} {name : String} {u t : Progress} :
      waiting = p :: rest → settle ctx p s = (.error (.tooDeep q name), u) → q ∈ waiting →
      u.grid.phase q ≠ .done → t.grid = u.grid.set q (.ofFault .loop) →
      Turn ctx waiting s waiting t

inductive Steps (ctx : Context) : Nat → List Position → Progress → List Position → Progress → Prop
  | none (waiting : List Position) (s : Progress) : Steps ctx 0 waiting s waiting s
  | more {n : Nat} {p : Position} {rest waiting waiting' : List Position} {s t u : Progress} :
      restartStep ctx (p :: rest) s = (.ok waiting, t) → Steps ctx n waiting t waiting' u →
      Steps ctx (n + 1) (p :: rest) s waiting' u

theorem restartStep_turn {rest : List Position}
    (h : restartStep ctx (p :: rest) s = (.ok waiting', t)) :
    Turn ctx (p :: rest) s waiting' t := by
  generalize hr : Except.ok waiting' = r at h
  cases restartStep_cases h with
  | settled hu =>
    cases hr
    exact .left rfl hu (((settle_settles ctx).settling hu).done rfl)
  | @looped q name u _ hu hin ht =>
    cases hr
    have hdeep := ((settle_settles ctx).settling hu).orderly.deep q name rfl
    exact .broken rfl hu hin (by simp [hdeep]) ht
  | @resumed q name u _ hu hin ht =>
    cases hr
    have hdeep := ((settle_settles ctx).settling hu).orderly.deep q name rfl
    rw [← ht] at hdeep
    exact .joined rfl hu hin ht (contains_of_phase (by simp [hdeep])) (by simp [hdeep])
  | stopped => cases hr

theorem Turn.nodup (h : Turn ctx waiting s waiting' t) (hw : waiting.Nodup) : waiting'.Nodup := by
  cases h with
  | left he => exact (he ▸ hw).of_cons
  | joined _ _ hin => exact List.nodup_cons.2 ⟨hin, hw⟩
  | broken => exact hw

theorem Steps.nodup {n : Nat} (h : Steps ctx n waiting s waiting' t) (hw : waiting.Nodup) :
    waiting'.Nodup := by
  induction h with
  | none => exact hw
  | more hstep _ ih => exact ih ((restartStep_turn hstep).nodup hw)

theorem Steps.effort {n : Nat} (h : Steps ctx n waiting s waiting' t) :
    n + t.grid.effort waiting' ≤ s.grid.effort waiting := by
  induction h with
  | none => omega
  | more hstep _ ih =>
    have heffort := (restartStep_progressed hstep).effort
    omega

theorem effort_pos (g : Grid) (rest : List Position) : 0 < g.effort (p :: rest) := by
  unfold Grid.effort
  rw [List.length_cons]
  omega

/-- With as many steps allowed as the effort says, the loop ends by itself: because no cell is
waiting any more, or because a step is stopped. -/
theorem restart_ends {n : Nat} (hn : s.grid.effort waiting ≤ n) :
    ∃ k waiting' t, Steps ctx k waiting s waiting' t ∧
      (waiting' = [] ∧ restart ctx n waiting s = (.ok (), t) ∨
        waiting' ≠ [] ∧ ∃ e u, restartStep ctx waiting' t = (.error e, u) ∧ ¬ e.IsDeep ∧
          restart ctx n waiting s = (.error e, u)) := by
  induction n generalizing waiting s with
  | zero =>
    cases waiting with
    | nil => exact ⟨0, [], s, .none [] s, .inl ⟨rfl, rfl⟩⟩
    | cons p rest =>
      have hpos := effort_pos (p := p) s.grid rest
      omega
  | succ n ih =>
    cases waiting with
    | nil => exact ⟨0, [], s, .none [] s, .inl ⟨rfl, rfl⟩⟩
    | cons p rest =>
      rcases hu : restartStep ctx (p :: rest) s with ⟨v, u⟩
      rw [restart_cons]
      cases v with
      | error e =>
        rw [Action.bind_error hu]
        refine ⟨0, p :: rest, s, .none _ s, .inr ⟨by simp, e, u, hu, ?_, rfl⟩⟩
        cases restartStep_cases hu with
        | stopped he => exact he
      | ok waiting' =>
        rw [Action.bind_ok hu]
        have heffort := (restartStep_progressed hu).effort
        obtain ⟨k, waiting'', t, hsteps, hend⟩ := @ih u waiting' (by omega)
        exact ⟨k + 1, waiting'', t, .more hu hsteps, hend⟩

/-- The loop that settles one cell, in any state of the table: no more than three steps for each
cell of it and one more are begun, each of them does one of three things to the waiting cells, of
which none is in the list twice, and in the end the list is empty or a step has been stopped, but
not by a cell that lies too deep. -/
theorem ensure_ends (ctx : Context) (p : Position) (s : Progress) :
    (∀ n waiting t, Steps ctx n [p] s waiting t →
      n ≤ 3 * (s.grid.rows * s.grid.columns) + 1 ∧
      (waiting ≠ [] → n + 1 ≤ 3 * (s.grid.rows * s.grid.columns) + 1) ∧ waiting.Nodup ∧
      ∀ waiting' u, waiting ≠ [] → restartStep ctx waiting t = (.ok waiting', u) →
        Turn ctx waiting t waiting' u) ∧
    ∃ n waiting t, Steps ctx n [p] s waiting t ∧
      (waiting = [] ∧ ensure ctx p s = (.ok (), t) ∨
        waiting ≠ [] ∧ ∃ e u, restartStep ctx waiting t = (.error e, u) ∧ ¬ e.IsDeep ∧
          ensure ctx p s = (.error e, u)) := by
  have hbound := effort_le_restartBound s.grid p
  constructor
  · intro n waiting t hsteps
    have heffort := hsteps.effort
    unfold restartBound at hbound
    refine ⟨by omega, fun hne => ?_, hsteps.nodup (by simp), ?_⟩
    · obtain ⟨q, rest, rfl⟩ := List.exists_cons_of_ne_nil hne
      have hpos := effort_pos (p := q) t.grid rest
      omega
    · intro waiting' u hne hstep
      obtain ⟨q, rest, rfl⟩ := List.exists_cons_of_ne_nil hne
      exact restartStep_turn hstep
  · exact restart_ends hbound

end GridCalc.Evaluation
