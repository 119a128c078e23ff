import GridCalc.Evaluation.Progress

/-!
# What an evaluation leaves in place

Whatever state a table is in, an evaluation keeps its size and its arena, never touches a cell
that is done, and turns a cell that is active into nothing but the fault of a loop. A cell that is
being worked out belongs to the computation that has made it active: between marking it and
settling or releasing it, that computation may do anything with it.
-/

set_option autoImplicit false

namespace GridCalc.Grid

/-- Two states of one table. -/
structure Alike (g h : Grid) : Prop where
  rows : h.rows = g.rows
  columns : h.columns = g.columns
  arena : h.arena = g.arena

structure Advance (g h : Grid) : Prop where
  alike : g.Alike h
  done : ∀ p, g.phase p = .done → h.cellAt p = g.cellAt p
  active : ∀ p, g.phase p = .active →
    h.cellAt p = g.cellAt p ∨ h.cellAt p = .ofFault .loop

/-- Two states of one table that differ in no other cell than `p`. -/
structure AlikeOff (p : Position) (g h : Grid) : Prop where
  alike : g.Alike h
  same : ∀ q, q ≠ p → h.cellAt q = g.cellAt q

def marked (g : Grid) (p : Position) : Grid := g.set p { g.cellAt p with phase := .active }

def released (g : Grid) (p : Position) : Grid :=
  if g.phase p = .active then g.set p { g.cellAt p with phase := .pending } else g

def finished (g : Grid) (p : Position) (c : Cell) : Grid :=
  if g.phase p = .active then g.set p c else g

section

variable {g h i : Grid} {p q : Position} {c : Cell}

theorem Alike.refl (g : Grid) : g.Alike g := ⟨rfl, rfl, rfl⟩

theorem Alike.trans (hg : g.Alike h) (hh : h.Alike i) : g.Alike i :=
  ⟨hh.rows.trans hg.rows, hh.columns.trans hg.columns, hh.arena.trans hg.arena⟩

theorem Alike.symm (hg : g.Alike h) : h.Alike g := ⟨hg.rows.symm, hg.columns.symm, hg.arena.symm⟩

theorem Alike.contains (hg : g.Alike h) : h.contains p ↔ g.contains p := by
  simp only [Grid.contains, hg.rows, hg.columns]

theorem Alike.cellAt_outside (hg : g.Alike h) (hp : ¬ g.contains p) :
    h.cellAt p = .ofFault .outsideTable :=
  cellAt_of_not_contains fun hin => hp (hg.contains.1 hin)

theorem Alike.cell?_eq (hg : g.Alike h) (hp : h.cellAt p = g.cellAt p) :
    h.cell? p = g.cell? p := by
  by_cases hin : g.contains p
  · rw [cell?_of_contains hin, cell?_of_contains (hg.contains.2 hin), hp]
  · rw [cell?, if_neg (fun hout => hin (hg.contains.1 hout)), cell?, if_neg hin]

theorem alike_set (g : Grid) (p : Position) (c : Cell) : g.Alike (g.set p c) :=
  ⟨rows_set g p c, columns_set g p c, arena_set g p c⟩

theorem cellAt_set_cases (g : Grid) (p q : Position) (c : Cell) :
    (g.set p c).cellAt q = c ∨ (g.set p c).cellAt q = g.cellAt q := by
  by_cases hqp : q = p
  · subst hqp
    by_cases hin : g.contains q
    · exact .inl (cellAt_set_self hin)
    · exact .inr (by rw [set_of_not_contains hin])
  · exact .inr (cellAt_set_ne hqp)

theorem AlikeOff.refl (p : Position) (g : Grid) : AlikeOff p g g := ⟨.refl g, fun _ _ => rfl⟩

theorem alikeOff_set (g : Grid) (p : Position) (c : Cell) : AlikeOff p g (g.set p c) :=
  ⟨alike_set g p c, fun _ hq => cellAt_set_ne hq⟩

theorem alikeOff_released (g : Grid) (p : Position) : AlikeOff p g (g.released p) := by
  unfold released
  split
  · exact alikeOff_set g p _
  · exact .refl p g

theorem alikeOff_finished (g : Grid) (p : Position) (c : Cell) :
    AlikeOff p g (g.finished p c) := by
  unfold finished
  split
  · exact alikeOff_set g p c
  · exact .refl p g

theorem phase_released_ne (g : Grid) (p : Position) : (g.released p).phase p ≠ .active := by
  by_cases ha : g.phase p = .active
  · rw [released, if_pos ha, phase_set_self (contains_of_phase (by simp [ha]))]
    simp
  · rwa [released, if_neg ha]

theorem Advance.refl (g : Grid) : g.Advance g :=
  ⟨.refl g, fun _ _ => rfl, fun _ _ => .inl rfl⟩

theorem Advance.trans (hg : g.Advance h) (hh : h.Advance i) : g.Advance i := by
  refine ⟨hg.alike.trans hh.alike, fun p hp => ?_, fun p hp => ?_⟩
  · have he := hg.done p hp
    rw [← he]
    exact hh.done p (by rw [phase, he]; exact hp)
  · rcases hg.active p hp with he | he
    · rw [← he]
      exact hh.active p (by rw [phase, he]; exact hp)
    · right
      rw [hh.done p (by rw [phase, he]; rfl), he]

theorem Advance.phase_done (hg : g.Advance h) (hp : g.phase p = .done) : h.phase p = .done := by
  rw [phase, hg.done p hp]
  exact hp

theorem Advance.done_of_not_active (hg : g.Advance h) (hp : g.phase p = .active)
    (hh : h.phase p ≠ .active) : h.cellAt p = .ofFault .loop := by
  rcases hg.active p hp with he | he
  · rw [phase, he] at hh
    exact absurd hp hh
  · exact he

theorem advance_of_alikeOff (hg : AlikeOff p g h) (hp : g.phase p = .pending) : g.Advance h := by
  have hne : ∀ q, g.phase q ≠ .pending → h.cellAt q = g.cellAt q := by
    intro q hq
    apply hg.same
    rintro rfl
    exact hq hp
  exact ⟨hg.alike, fun q hq => hne q (by simp [hq]), fun q hq => .inl (hne q (by simp [hq]))⟩

/-- What happens between the marking of a waiting cell and its settling concerns no other cell
than what it would concern anyway. -/
theorem Advance.around {g' h' : Grid} (hp : g.phase p = .pending) (hg : AlikeOff p g g')
    (ha : g'.Advance h') (hh : AlikeOff p h' h) : g.Advance h := by
  have hne : ∀ q, g.phase q ≠ .pending → q ≠ p := by
    rintro q hq rfl
    exact hq hp
  refine ⟨(hg.alike.trans ha.alike).trans hh.alike, fun q hq => ?_, fun q hq => ?_⟩
  · have hqp := hne q (by simp [hq])
    have hs := hg.same q hqp
    rw [hh.same q hqp, ← hs]
    exact ha.done q (by rw [phase, hs]; exact hq)
  · have hqp := hne q (by simp [hq])
    have hs := hg.same q hqp
    rw [hh.same q hqp, ← hs]
    exact ha.active q (by rw [phase, hs]; exact hq)

theorem advance_set_loop (hp : g.phase p ≠ .done) : g.Advance (g.set p (.ofFault .loop)) := by
  have hc := contains_of_phase hp
  refine ⟨alike_set g p _, fun q hq => ?_, fun q hq => ?_⟩
  · apply cellAt_set_ne
    rintro rfl
    exact hp hq
  · by_cases he : q = p
    · subst he
      exact .inr (cellAt_set_self hc)
    · exact .inl (cellAt_set_ne he)

end

end GridCalc.Grid

namespace GridCalc.Progress
open GridCalc

theorem grid_release (s : Progress) (p : Position) : (s.release p).grid = s.grid.released p := by
  unfold release Grid.released
  by_cases ha : s.grid.phase p = .active
  · rw [if_pos (isActive_iff.2 ha), if_pos ha, grid_mark]
  · rw [if_neg (fun h => ha (isActive_iff.1 h)), if_neg ha]

theorem grid_finish (s : Progress) (p : Position) (c : Cell) :
    (s.finish p c).grid = s.grid.finished p c := by
  unfold finish Grid.finished
  by_cases ha : s.grid.phase p = .active
  · rw [if_pos (isActive_iff.2 ha), if_pos ha, grid_put]
  · rw [if_neg (fun h => ha (isActive_iff.1 h)), if_neg ha]

end GridCalc.Progress
