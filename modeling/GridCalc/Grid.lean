import GridCalc.Cell
import GridCalc.Position.Name

/-!
# Tables

A grid of cells with the arena of their formulas. Positions outside the grid may be asked about:
there is no cell there, and what is seen there is a fault.
-/

set_option autoImplicit false

namespace GridCalc

abbrev Rows (rows columns : Nat) := Vector (Vector Cell columns) rows

namespace Rows

variable {rows columns : Nat}

def at? (cells : Rows rows columns) (r c : Nat) : Option Cell := cells[r]?.bind (·[c]?)

def put (cells : Rows rows columns) (r c : Nat) (x : Cell) : Rows rows columns :=
  if h : r < rows then cells.set r (cells[r].setIfInBounds c x) else cells

theorem at?_isSome (cells : Rows rows columns) {r c : Nat} :
    (cells.at? r c).isSome ↔ r < rows ∧ c < columns := by
  by_cases hr : r < rows <;> by_cases hc : c < columns <;> simp [at?, hr, hc]

theorem at?_put_self (cells : Rows rows columns) {r c : Nat} {x : Cell} (hr : r < rows)
    (hc : c < columns) : (cells.put r c x).at? r c = some x := by
  simp [at?, put, hr, hc]

theorem at?_put_ne (cells : Rows rows columns) {r c i j : Nat} {x : Cell}
    (h : r ≠ i ∨ c ≠ j) : (cells.put r c x).at? i j = cells.at? i j := by
  by_cases hr : r < rows
  · by_cases hri : r = i
    · subst hri
      have hc : c ≠ j := h.resolve_left (fun hn => hn rfl)
      simp [at?, put, hr, Vector.getElem?_setIfInBounds_ne hc]
    · simp [at?, put, hr, Vector.getElem?_set_ne _ hri]
  · simp [put, hr]

end Rows

structure Grid where
  rows : Nat
  columns : Nat
  cells : Rows rows columns
  arena : Arena
  deriving DecidableEq

namespace Grid

def contains (g : Grid) (p : Position) : Prop :=
  (0 ≤ p.row ∧ p.row < g.rows) ∧ (0 ≤ p.column ∧ p.column < g.columns)

instance (g : Grid) (p : Position) : Decidable (g.contains p) :=
  inferInstanceAs (Decidable (_ ∧ _))

def cell? (g : Grid) (p : Position) : Option Cell :=
  if g.contains p then g.cells.at? p.row.toNat p.column.toNat else none

/-- The cell that is seen at a position, outside the grid a fault. -/
def cellAt (g : Grid) (p : Position) : Cell := (g.cell? p).getD (.ofFault .outsideTable)

def content (g : Grid) (p : Position) : Content := (g.cellAt p).content

def phase (g : Grid) (p : Position) : Phase := (g.cellAt p).phase

def set (g : Grid) (p : Position) (c : Cell) : Grid :=
  if g.contains p then { g with cells := g.cells.put p.row.toNat p.column.toNat c } else g

def positions (g : Grid) : List Position :=
  (List.range g.rows).flatMap fun (row : Nat) =>
    (List.range g.columns).map fun (column : Nat) => ⟨row, column⟩

def isEmptyAt (g : Grid) (p : Position) : Bool :=
  match g.cell? p with
  | some c => c.content.isEmpty
  | none => false

def ofCells (rows columns : Nat) (cells : List Cell) (arena : Arena) : Grid :=
  let cells := cells.toArray
  { rows, columns, arena
    cells := Vector.ofFn fun (r : Fin rows) =>
      Vector.ofFn fun (c : Fin columns) => cells.getD (r * columns + c) .empty }

theorem rows_set (g : Grid) (p : Position) (c : Cell) : (g.set p c).rows = g.rows := by
  unfold set; split <;> rfl

theorem columns_set (g : Grid) (p : Position) (c : Cell) :
    (g.set p c).columns = g.columns := by
  unfold set; split <;> rfl

theorem arena_set (g : Grid) (p : Position) (c : Cell) : (g.set p c).arena = g.arena := by
  unfold set; split <;> rfl

theorem contains_set {g : Grid} {p q : Position} {c : Cell} :
    (g.set p c).contains q ↔ g.contains q := by
  simp [contains, rows_set, columns_set]

theorem contains_iff_isSome {g : Grid} {p : Position} : g.contains p ↔ (g.cell? p).isSome := by
  unfold cell?
  split
  · next h =>
    rw [Rows.at?_isSome]
    obtain ⟨⟨_, _⟩, _, _⟩ := h
    simp only [contains]
    omega
  · next h => simp [h]

theorem set_of_contains {g : Grid} {p : Position} {c : Cell} (h : g.contains p) :
    g.set p c = { g with cells := g.cells.put p.row.toNat p.column.toNat c } := if_pos h

theorem set_of_not_contains {g : Grid} {p : Position} {c : Cell} (h : ¬ g.contains p) :
    g.set p c = g := by
  simp [set, h]

theorem cell?_set_self {g : Grid} {p : Position} {c : Cell} (h : g.contains p) :
    (g.set p c).cell? p = some c := by
  rw [cell?, if_pos (contains_set.2 h), set_of_contains h]
  obtain ⟨⟨_, _⟩, _, _⟩ := h
  exact Rows.at?_put_self g.cells (by omega) (by omega)

theorem cell?_set_ne {g : Grid} {p q : Position} {c : Cell} (hne : q ≠ p) :
    (g.set p c).cell? q = g.cell? q := by
  by_cases hp : g.contains p
  · by_cases hq : g.contains q
    · rw [cell?, cell?, if_pos (contains_set.2 hq), if_pos hq, set_of_contains hp]
      apply Rows.at?_put_ne g.cells
      obtain ⟨⟨_, _⟩, _, _⟩ := hp
      obtain ⟨⟨_, _⟩, _, _⟩ := hq
      cases p; cases q
      simp only [Position.mk.injEq, ne_eq, not_and] at *
      omega
    · rw [cell?, cell?, if_neg (fun h => hq (contains_set.1 h)), if_neg hq]
  · rw [set_of_not_contains hp]

theorem cellAt_eq {g : Grid} {p : Position} {c : Cell} (h : g.cell? p = some c) :
    g.cellAt p = c := by
  rw [cellAt, h]
  rfl

theorem cellAt_of_not_contains {g : Grid} {p : Position} (h : ¬ g.contains p) :
    g.cellAt p = .ofFault .outsideTable := by
  rw [cellAt, cell?, if_neg h]
  rfl

theorem cell?_of_contains {g : Grid} {p : Position} (h : g.contains p) :
    g.cell? p = some (g.cellAt p) := by
  obtain ⟨c, hc⟩ := Option.isSome_iff_exists.1 (contains_iff_isSome.1 h)
  rw [hc, cellAt_eq hc]

theorem cellAt_set_self {g : Grid} {p : Position} {c : Cell} (h : g.contains p) :
    (g.set p c).cellAt p = c := cellAt_eq (cell?_set_self h)

theorem cellAt_set_ne {g : Grid} {p q : Position} {c : Cell} (hne : q ≠ p) :
    (g.set p c).cellAt q = g.cellAt q := by
  rw [cellAt, cell?_set_ne hne, cellAt]

theorem phase_set_self {g : Grid} {p : Position} {c : Cell} (h : g.contains p) :
    (g.set p c).phase p = c.phase := by
  rw [phase, cellAt_set_self h]

theorem phase_set_ne {g : Grid} {p q : Position} {c : Cell} (hne : q ≠ p) :
    (g.set p c).phase q = g.phase q := by
  rw [phase, cellAt_set_ne hne, phase]

theorem content_set_self {g : Grid} {p : Position} {c : Cell} (h : g.contains p) :
    (g.set p c).content p = c.content := by
  rw [content, cellAt_set_self h]

theorem content_set_ne {g : Grid} {p q : Position} {c : Cell} (hne : q ≠ p) :
    (g.set p c).content q = g.content q := by
  rw [content, cellAt_set_ne hne, content]

theorem mem_positions {g : Grid} {p : Position} : p ∈ g.positions ↔ g.contains p := by
  obtain ⟨row, column⟩ := p
  simp only [positions, List.mem_flatMap, List.mem_map, List.mem_range, contains,
    Position.mk.injEq]
  constructor
  · rintro ⟨r, hr, c, hc, rfl, rfl⟩
    omega
  · rintro ⟨⟨hr, hr'⟩, hc, hc'⟩
    exact ⟨row.toNat, by omega, column.toNat, by omega, by omega, by omega⟩

theorem length_positions (g : Grid) : g.positions.length = g.rows * g.columns := by
  simp [positions, List.map_const']

theorem contains_of_phase {g : Grid} {p : Position} (h : g.phase p ≠ .done) : g.contains p := by
  by_cases hp : g.contains p
  · exact hp
  · rw [phase, cellAt_of_not_contains hp] at h
    exact absurd rfl h

end Grid

end GridCalc
