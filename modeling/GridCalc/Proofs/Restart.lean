import GridCalc.Proofs.Settling

/-!
# Restarts

The loop that settles a cell however long the chain of references from it is. Each step has an
effect on the list of the waiting cells and on the table: the first cell is settled and leaves the
list, or another one joins it, or a cell becomes the fault of a loop. A cell is waited for at most
once, and what is done remains so; hence each step lowers the effort that is left, and the steps
that are allowed for always suffice.
-/

set_option autoImplicit false

namespace GridCalc

namespace Grid

def unsettled (g : Grid) : Nat := g.positions.countP fun p => g.phase p ≠ .done

/-- The number of cells that are not done and not waiting. -/
def fresh (g : Grid) (waiting : List Position) : Nat :=
  g.positions.countP fun p => g.phase p ≠ .done ∧ p ∉ waiting

/-- The steps that may still be needed: a cell may leave the list, it may become the fault of a
loop, and one that is not yet waiting may have to join the list and leave it again. -/
def effort (g : Grid) (waiting : List Position) : Nat :=
  g.unsettled + waiting.length + 2 * g.fresh waiting

variable {g h : Grid} {p q : Position} {waiting waiting' : List Position}

theorem Alike.positions (ha : g.Alike h) : h.positions = g.positions := by
  simp only [Grid.positions, ha.rows, ha.columns]

theorem countP_lt {l : List Position} {P Q : Position → Bool} (hPQ : ∀ x ∈ l, P x → Q x)
    (hp : p ∈ l) (hQ : Q p) (hP : ¬ P p) : l.countP P < l.countP Q := by
  have hfilter : l.filter P = (l.filter Q).filter P := by
    rw [List.filter_filter]
    refine List.filter_congr fun x hx => ?_
    cases hPx : P x with
    | true => simp [hPQ x hx hPx]
    | false => simp
  rw [List.countP_eq_length_filter, List.countP_eq_length_filter, hfilter]
  exact List.length_filter_lt_length_iff_exists.2 ⟨p, List.mem_filter.2 ⟨hp, hQ⟩, hP⟩

theorem unsettled_le (g : Grid) : g.unsettled ≤ g.rows * g.columns := by
  rw [← length_positions]
  exact List.countP_le_length

theorem fresh_le (g : Grid) (waiting : List Position) : g.fresh waiting ≤ g.rows * g.columns := by
  rw [← length_positions]
  exact List.countP_le_length

theorem Advance.unsettled_le (ha : g.Advance h) : h.unsettled ≤ g.unsettled := by
  unfold unsettled
  rw [ha.alike.positions]
  apply List.countP_mono_left
  intro p _ hp
  simp only [ne_eq, decide_not, Bool.not_eq_true', decide_eq_false_iff_not] at hp ⊢
  exact fun hd => hp (ha.phase_done hd)

theorem Advance.unsettled_lt (ha : g.Advance h) (hp : g.phase p ≠ .done)
    (hd : h.phase p = .done) : h.unsettled < g.unsettled := by
  unfold unsettled
  rw [ha.alike.positions]
  refine countP_lt (fun q _ hq => ?_) (mem_positions.2 (contains_of_phase hp)) (by simp [hp])
    (by simp [hd])
  simp only [ne_eq, decide_not, Bool.not_eq_true', decide_eq_false_iff_not] at hq ⊢
  exact fun hd => hq (ha.phase_done hd)

theorem Advance.fresh_le (ha : g.Advance h)
    (hw : ∀ q ∈ waiting, q ∈ waiting' ∨ h.phase q = .done) :
    h.fresh waiting' ≤ g.fresh waiting := by
  -- Cells leave the list only when they are done.
  unfold fresh
  rw [ha.alike.positions]
  apply List.countP_mono_left
  intro q _ hq
  simp only [decide_eq_true_eq] at hq ⊢
  constructor
  · intro hd
    exact hq.1 (ha.phase_done hd)
  · intro hq'
    rcases hw q hq' with hin | hd
    · exact hq.2 hin
    · exact hq.1 hd

theorem Advance.fresh_lt (ha : g.Advance h) (hp : g.phase p ≠ .done) (hin : p ∉ waiting) :
    h.fresh (p :: waiting) < g.fresh waiting := by
  unfold fresh
  rw [ha.alike.positions]
  refine countP_lt (fun q _ hq => ?_) (mem_positions.2 (contains_of_phase hp))
    (by simp [hp, hin]) (by simp)
  simp only [decide_eq_true_eq, List.mem_cons, not_or] at hq ⊢
  exact ⟨fun hd => hq.1 (ha.phase_done hd), hq.2.2⟩

end Grid

namespace Evaluation
open Grid

variable {ctx : Context} {s t : Progress}

inductive Restarted (ctx : Context) (p : Position) (rest : List Position) (s : Progress) :
    Except Stop (List Position) → Progress → Prop
  | settled {t : Progress} : settle ctx p s = (.ok (), t) → Restarted ctx p rest s (.ok rest) t
  | looped {q : Position} {name : String} {u t : Progress} :
      settle ctx p s = (.error (.tooDeep q name), u) → q ∈ p :: rest →
      t.grid = u.grid.set q (.ofFault .loop) → t.depth = u.depth →
      Restarted ctx p rest s (.ok (p :: rest)) t
  | resumed {q : Position} {name : String} {u t : Progress} :
      settle ctx p s = (.error (.tooDeep q name), u) → q ∉ p :: rest →
      t.grid = u.grid → t.depth = u.depth → Restarted ctx p rest s (.ok (q :: p :: rest)) t
  | stopped {e : Stop} {t : Progress} : ¬ e.IsDeep → settle ctx p s = (.error e, t) →
      Restarted ctx p rest s (.error e) t

theorem restartStep_cases {p : Position} {rest : List Position}
    {r : Except Stop (List Position)} (h : restartStep ctx (p :: rest) s = (r, t)) :
    Restarted ctx p rest s r t := by
  unfold restartStep restartStepBy at h
  dsimp only at h
  rcases hu : settle ctx p s with ⟨v, u⟩
  rw [hu] at h
  cases v with
  | ok a =>
    cases h
    exact .settled hu
  | error e =>
    cases e with
    | tooDeep q name =>
      dsimp only at h
      split at h
      · next hq =>
        cases h
        exact .looped hu hq rfl rfl
      · next hq =>
        cases h
        exact .resumed hu hq rfl rfl
    | fault f =>
      cases h
      exact .stopped id hu
    | breakdown b =>
      cases h
      exact .stopped id hu

structure Progressed (g : Grid) (waiting : List Position) (h : Grid) (waiting' : List Position) :
    Prop where
  advance : g.Advance h
  covered : ∀ p ∈ waiting, p ∈ waiting' ∨ h.phase p = .done
  effort : h.effort waiting' < g.effort waiting

theorem restartStep_progressed {p : Position} {rest waiting' : List Position}
    (h : restartStep ctx (p :: rest) s = (.ok waiting', t)) :
    Progressed s.grid (p :: rest) t.grid waiting' := by
  generalize hr : Except.ok waiting' = r at h
  cases restartStep_cases h with
  | settled hu =>
    cases hr
    obtain ⟨ho, hdone, _⟩ := (settle_settles ctx).settling hu
    have hcovered : ∀ q ∈ p :: rest, q ∈ rest ∨ t.grid.phase q = .done := by
      intro q hq
      rcases List.mem_cons.1 hq with rfl | hq
      · exact .inr (hdone rfl)
      · exact .inl hq
    have hunsettled := ho.advance.unsettled_le
    have hfresh := ho.advance.fresh_le hcovered
    refine ⟨ho.advance, hcovered, ?_⟩
    unfold Grid.effort
    rw [List.length_cons]
    omega
  | @looped q name u _ hu _ ht =>
    cases hr
    obtain ⟨ho, _, _⟩ := (settle_settles ctx).settling hu
    have hq : u.grid.phase q ≠ .done := by simp [ho.deep q name rfl]
    have hset : u.grid.Advance t.grid := ht ▸ advance_set_loop hq
    have hdone : t.grid.phase q = .done := by
      rw [ht, phase_set_self (contains_of_phase hq)]
      rfl
    have hcovered : ∀ x ∈ p :: rest, x ∈ p :: rest ∨ t.grid.phase x = .done := fun x hx => .inl hx
    have hunsettled := ho.advance.unsettled_le
    have hlt := hset.unsettled_lt hq hdone
    have hfresh := (ho.advance.trans hset).fresh_le hcovered
    refine ⟨ho.advance.trans hset, hcovered, ?_⟩
    unfold Grid.effort
    omega
  | @resumed q name u _ hu hin ht =>
    cases hr
    obtain ⟨ho, _, _⟩ := (settle_settles ctx).settling hu
    have hq : s.grid.phase q ≠ .done := by
      intro hd
      have hd' := ho.advance.phase_done hd
      rw [ho.deep q name rfl] at hd'
      cases hd'
    have hunsettled := ho.advance.unsettled_le
    have hfresh := ho.advance.fresh_lt hq hin
    rw [ht]
    refine ⟨ho.advance, fun x hx => .inl (List.mem_cons_of_mem q hx), ?_⟩
    unfold Grid.effort
    rw [List.length_cons]
    omega
  | stopped => cases hr

/-- With enough steps, all waiting cells are done in the end. -/
theorem restart_done {n : Nat} {waiting : List Position}
    (h : restart ctx n waiting s = (.ok (), t)) :
    s.grid.Advance t.grid ∧
      (s.grid.effort waiting ≤ n → ∀ p ∈ waiting, t.grid.phase p = .done) := by
  induction n generalizing waiting s with
  | zero =>
    cases h
    refine ⟨.refl _, fun hn => ?_⟩
    have hlength : waiting.length = 0 := by
      unfold Grid.effort at hn
      omega
    simp [List.length_eq_zero_iff.1 hlength]
  | succ n ih =>
    cases waiting with
    | nil =>
      cases h
      exact ⟨.refl _, by simp⟩
    | cons p rest =>
      rw [restart_cons] at h
      obtain ⟨waiting', u, hu, h⟩ := Action.ok_of_bind h
      obtain ⟨hadvance, hcovered, heffort⟩ := restartStep_progressed hu
      obtain ⟨hadvance', hdone⟩ := ih h
      refine ⟨hadvance.trans hadvance', fun hn q hq => ?_⟩
      rcases hcovered q hq with hq' | hq'
      · exact hdone (by omega) q hq'
      · exact hadvance'.phase_done hq'

theorem effort_le_restartBound (g : Grid) (p : Position) :
    g.effort [p] ≤ restartBound g := by
  have hunsettled := g.unsettled_le
  have hfresh := g.fresh_le [p]
  unfold Grid.effort restartBound
  rw [List.length_singleton]
  omega

theorem ensure_done {p : Position} (h : ensure ctx p s = (.ok (), t)) :
    s.grid.Advance t.grid ∧ t.grid.phase p = .done := by
  obtain ⟨hadvance, hdone⟩ := restart_done h
  exact ⟨hadvance, hdone (effort_le_restartBound s.grid p) p (by simp)⟩

theorem ensureAll_done {ps : List Position} (h : ensureAll ctx ps s = (.ok (), t)) :
    s.grid.Advance t.grid ∧ ∀ p ∈ ps, t.grid.phase p = .done := by
  induction ps generalizing s with
  | nil =>
    cases h
    exact ⟨.refl _, by simp⟩
  | cons p ps ih =>
    rw [ensureAll_cons] at h
    obtain ⟨_, u, hu, h⟩ := Action.ok_of_bind h
    obtain ⟨hadvance, hdone⟩ := ensure_done hu
    obtain ⟨hadvance', hdone'⟩ := ih h
    refine ⟨hadvance.trans hadvance', fun q hq => ?_⟩
    rcases List.mem_cons.1 hq with rfl | hq
    · exact hadvance'.phase_done hdone
    · exact hdone' q hq

theorem evaluate_done (h : evaluate ctx s = (.ok (), t)) :
    s.grid.Advance t.grid ∧ ∀ p, t.grid.phase p = .done := by
  obtain ⟨hadvance, hdone⟩ := ensureAll_done h
  refine ⟨hadvance, fun p => ?_⟩
  by_cases hp : s.grid.contains p
  · exact hdone p (mem_positions.2 hp)
  · rw [phase, hadvance.alike.cellAt_outside hp]
    rfl

end Evaluation

end GridCalc
