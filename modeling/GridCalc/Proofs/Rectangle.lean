import GridCalc.Grid
import Mathlib.Data.List.Sort

/-!
# Rectangles

The positions of a region are those of the rectangle between its corners, in the order of their
rows and, within a row, of their columns. No other list has just these positions in this order; so
it makes no difference by which two opposite corners the rectangle is given, and a region that is
shifted has the same positions shifted.
-/

set_option autoImplicit false

namespace GridCalc

/-- The order of the rows and, within a row, of the columns. -/
def Position.Before (p q : Position) : Prop :=
  p.row < q.row ∨ p.row = q.row ∧ p.column < q.column

instance : Std.Irrefl Position.Before := ⟨fun p h => by unfold Position.Before at h; omega⟩

instance : Std.Antisymm Position.Before :=
  ⟨fun p q hp hq => by unfold Position.Before at hp hq; omega⟩

theorem Position.Before.shift {p q : Position} (h : p.Before q) (d : Position) :
    (p.shift d).Before (q.shift d) := by
  unfold Before at h
  simp only [Before, Position.shift]
  omega

theorem pairwise_between (a b : Int) : (between a b).Pairwise (· < ·) := by
  rw [between, List.pairwise_map]
  exact List.pairwise_lt_range.imp fun h => by omega

theorem length_between (a b : Int) : (between a b).length = (a - b).natAbs + 1 := by
  rw [between, List.length_map, List.length_range]
  omega

namespace Region

variable {r : Region} {p : Position} {ps : List Position}

theorem pairwise_positions (r : Region) : r.positions.Pairwise Position.Before := by
  rw [positions, List.pairwise_flatMap]
  constructor
  · -- within a row the columns ascend
    intro row _
    rw [List.pairwise_map]
    exact (pairwise_between _ _).imp fun h => .inr ⟨rfl, h⟩
  · -- and all of a row comes before all of the next ones
    refine (pairwise_between _ _).imp fun {row row'} hrow p hp q hq => ?_
    obtain ⟨column, _, rfl⟩ := List.mem_map.1 hp
    obtain ⟨column', _, rfl⟩ := List.mem_map.1 hq
    exact .inl hrow

theorem length_positions (r : Region) :
    r.positions.length =
      ((r.start.row - r.finish.row).natAbs + 1) *
        ((r.start.column - r.finish.column).natAbs + 1) := by
  simp [positions, length_between, List.map_const']

/-- Only one list has the positions of the rectangle in order. -/
theorem eq_positions (hps : ps.Pairwise Position.Before) (h : ∀ p, p ∈ ps ↔ r.Covers p) :
    ps = r.positions :=
  hps.eq_of_mem_iff r.pairwise_positions fun p => (h p).trans mem_positions.symm

theorem positions_corners {a b c d : Position}
    (hrow : c.row = a.row ∧ d.row = b.row ∨ c.row = b.row ∧ d.row = a.row)
    (hcolumn : c.column = a.column ∧ d.column = b.column ∨
      c.column = b.column ∧ d.column = a.column) :
    (⟨c, d⟩ : Region).positions = (⟨a, b⟩ : Region).positions := by
  refine eq_positions (pairwise_positions _) fun p => mem_positions.trans ?_
  simp only [Covers]
  omega

theorem covers_shift {d : Position} : (r.shift d).Covers (p.shift d) ↔ r.Covers p := by
  simp only [Covers, Region.shift, Position.shift]
  omega

theorem positions_shift (r : Region) (d : Position) :
    (r.shift d).positions = r.positions.map (·.shift d) := by
  refine (eq_positions ?_ fun q => ?_).symm
  · rw [List.pairwise_map]
    exact r.pairwise_positions.imp fun h => h.shift d
  · -- every position is one that is shifted
    obtain ⟨p, rfl⟩ : ∃ p : Position, p.shift d = q :=
      ⟨⟨q.row - d.row, q.column - d.column⟩, by simp [Position.shift]⟩
    rw [covers_shift, ← mem_positions, List.mem_map]
    refine ⟨?_, fun hp => ⟨p, hp, rfl⟩⟩
    rintro ⟨p', hp', hsame⟩
    obtain rfl : p' = p := by
      cases p
      cases p'
      simp only [Position.shift, Position.mk.injEq] at hsame ⊢
      omega
    exact hp'

end Region

theorem Grid.contains_of_mem {g : Grid} {r : Region} {p : Position} (hstart : g.contains r.start)
    (hfinish : g.contains r.finish) (hp : p ∈ r.positions) : g.contains p := by
  have hcovers := Region.mem_positions.1 hp
  simp only [contains, Region.Covers] at *
  omega

end GridCalc
