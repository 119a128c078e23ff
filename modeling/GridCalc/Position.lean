/-!
# Positions

A table is a grid of positions that may be pointed at from any other: a row and a column, counted
from zero, of either sign. A direction is a unit step, and a region is the rectangle spanned by
two of its corners.
-/

set_option autoImplicit false

namespace GridCalc

inductive Direction where
  | up
  | right
  | down
  | left
  | stay
  deriving DecidableEq, Repr

namespace Direction

def step : Direction → Int × Int
  | up => (-1, 0)
  | right => (0, 1)
  | down => (1, 0)
  | left => (0, -1)
  | stay => (0, 0)

def reverse : Direction → Direction
  | up => down
  | right => left
  | down => up
  | left => right
  | stay => stay

def ofChar? : Char → Option Direction
  | '^' => some up
  | '>' => some right
  | 'v' => some down
  | '<' => some left
  | _ => none

theorem step_reverse (d : Direction) : d.reverse.step = (-d.step.1, -d.step.2) := by
  cases d <;> rfl

end Direction

structure Position where
  row : Int
  column : Int
  deriving DecidableEq, Repr

namespace Position

def origin : Position := ⟨0, 0⟩

def move (p : Position) (d : Direction) (count : Int) : Position :=
  ⟨p.row + d.step.1 * count, p.column + d.step.2 * count⟩

/-- The position as far from `p` as `q` is from the origin. -/
def shift (p q : Position) : Position := ⟨p.row + q.row, p.column + q.column⟩

theorem shift_origin (p : Position) : p.shift origin = p := by
  simp [shift, origin]

theorem move_shift (p q : Position) (d : Direction) (count : Int) :
    (p.move d count).shift q = (p.shift q).move d count := by
  simp only [move, shift, Position.mk.injEq]
  omega

end Position

structure Region where
  start : Position
  finish : Position
  deriving DecidableEq, Repr

/-- The numbers from `a` to `b`, whichever is the smaller, both included. -/
def between (a b : Int) : List Int :=
  (List.range ((max a b - min a b).toNat + 1)).map fun (k : Nat) => min a b + k

theorem mem_between {a b n : Int} : n ∈ between a b ↔ min a b ≤ n ∧ n ≤ max a b := by
  simp only [between, List.mem_map, List.mem_range]
  constructor
  · rintro ⟨k, hk, rfl⟩
    omega
  · rintro ⟨hl, hr⟩
    exact ⟨(n - min a b).toNat, by omega, by omega⟩

namespace Region

def shift (r : Region) (q : Position) : Region := ⟨r.start.shift q, r.finish.shift q⟩

def positions (r : Region) : List Position :=
  (between r.start.row r.finish.row).flatMap fun row =>
    (between r.start.column r.finish.column).map fun column => ⟨row, column⟩

def Covers (r : Region) (p : Position) : Prop :=
  (min r.start.row r.finish.row ≤ p.row ∧ p.row ≤ max r.start.row r.finish.row) ∧
    (min r.start.column r.finish.column ≤ p.column ∧ p.column ≤ max r.start.column r.finish.column)

theorem mem_positions {r : Region} {p : Position} : p ∈ r.positions ↔ r.Covers p := by
  simp only [positions, List.mem_flatMap, List.mem_map, mem_between, Covers]
  constructor
  · rintro ⟨row, hrow, column, hcolumn, rfl⟩
    exact ⟨hrow, hcolumn⟩
  · rintro ⟨hrow, hcolumn⟩
    exact ⟨p.row, hrow, p.column, hcolumn, rfl⟩

end Region

end GridCalc
