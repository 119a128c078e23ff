import GridCalc.Proofs.Change
import GridCalc.Proofs.Outcome
import GridCalc.Proofs.Roots
import Mathlib.Data.List.Forall2

/-!
# Which evaluations return

Whatever is wrong with a formula or a clone becomes the fault of its cell. What no cell can hold is
a position without a name: in a column past the last one that has a name, or in a row whose number
is too long. An evaluation names the formulas and clones, the sources of clones and the corners of
regions; if all of these have names, it returns.
-/

set_option autoImplicit false

namespace GridCalc

/-- The position has a name. -/
structure Position.IsNamed (p : Position) : Prop where
  named : p.row < 0 ∨ p.column < columnCount
  row : Text.fits (p.row + 1)
  column : Text.fits (p.column + 1)

theorem Position.IsNamed.name {p : Position} (h : p.IsNamed) : ∃ name, p.name = .ok name := by
  have hrow := integerName_ok.2 ⟨h.row, rfl⟩
  unfold Position.name
  split
  · exact ⟨_, by rw [hrow, integerName_ok.2 ⟨h.column, rfl⟩]; rfl⟩
  · next hinside =>
    have hcolumn : 1 ≤ p.column + 1 ∧ p.column + 1 ≤ columnCount := by
      have := h.named.resolve_left fun hrow => hinside (.inl hrow)
      omega
    exact ⟨_, by rw [columnName, if_pos hcolumn, hrow]; rfl⟩

def Region.IsNamed (r : Region) : Prop := r.start.IsNamed ∧ r.finish.IsNamed

theorem Region.IsNamed.name {r : Region} (h : r.IsNamed) : ∃ name, r.name = .ok name := by
  obtain ⟨start, hstart⟩ := h.1.name
  obtain ⟨finish, hfinish⟩ := h.2.name
  rw [Region.name, hstart, hfinish]
  exact ⟨_, rfl⟩

theorem Region.IsNamed.member {r : Region} {g : Grid} {p : Position} (h : r.IsNamed)
    (hstart : g.contains r.start) (hfinish : g.contains r.finish) (hp : p ∈ r.positions) :
    p.IsNamed := by
  obtain ⟨hrow, hcolumn⟩ := Region.mem_positions.1 hp
  obtain ⟨hs, hf⟩ := h
  obtain ⟨⟨hsr, _⟩, _⟩ := hstart
  obtain ⟨⟨hfr, _⟩, _⟩ := hfinish
  have hsn := hs.named
  have hfn := hf.named
  exact ⟨by omega, Text.fits_of_between hs.row hf.row (by omega),
    Text.fits_of_between hs.column hf.column (by omega)⟩

theorem Functions.mem_of_find {fs : Functions} {name : String} {f : Function}
    (h : fs.find name = .ok f) : f ∈ fs := by
  unfold Functions.find at h
  dsimp only at h
  split at h
  · next f' hf =>
    cases h
    exact List.mem_of_find?_eq_some hf
  · cases h

theorem Arena.Part.trans {a : Arena} {x y z : NodeId} (hxy : a.Part x y) (hyz : a.Part y z) :
    a.Part x z := by
  induction hxy with
  | root => exact hyz
  | left hn _ ih => exact .left hn (ih hyz)
  | right hn _ ih => exact .right hn (ih hyz)
  | operand hn _ ih => exact .operand hn (ih hyz)
  | argument hn hmem _ ih => exact .argument hn hmem (ih hyz)

namespace Inquiry

variable {α β : Type} {good : α → Prop} {goal : β → Prop}

/-- Whatever it sees that is no clone, the inquiry does not break down, and its result is good. -/
def Sturdy (good : α → Prop) : Inquiry α → Prop
  | done (.ok a) => good a
  | done (.error e) => ∀ b, e ≠ .breakdown b
  | look _ next => ∀ c, (∀ d offset, c ≠ .clone d offset) → (next c).Sturdy good

theorem Sturdy.bind {q : Inquiry α} {f : α → Inquiry β} (h : q.Sturdy good)
    (hf : ∀ a, good a → (f a).Sturdy goal) : (q >>= f).Sturdy goal := by
  induction q with
  | done r =>
    cases r with
    | ok a => exact hf a h
    | error e => exact h
  | look p next ih => exact fun c hc => ih c (h c hc)

theorem Sturdy.imp {q : Inquiry α} {better : α → Prop} (h : q.Sturdy good)
    (himp : ∀ a, good a → better a) : q.Sturdy better := by
  induction q with
  | done r =>
    cases r with
    | ok a => exact himp a h
    | error e => exact h
  | look p next ih => exact fun c hc => ih c (h c hc)

section

variable {g : Grid} {functions : Functions} {shift : Position}

def Fits (a : Arena) : ArgumentKind → NodeId → Prop
  | .range, id => a.RegionAt id
  | .scalar, id => ¬ a.RegionAt id

def Passes : ArgumentKind → Argument → Prop
  | .range, x => ∃ xs, x = .range xs ∧ xs ≠ []
  | .scalar, x => ∃ y, x = .scalar y

theorem isRegion_iff {a : Arena} {id : NodeId} {n : Node} (h : a.node? id = some n) :
    n.isRegion ↔ a.RegionAt id := by
  cases n <;> simp [Node.isRegion, Arena.RegionAt, h]

end

end Inquiry

namespace Evaluation
open Grid Inquiry

variable {limit : Nat} {ask : Position → Evaluation Unit} {p : Position} {s t : Progress}
  {r : Except Stop Unit} {start : Grid}

def Steady (start : Grid) (ask : Position → Evaluation Unit) : Prop :=
  ∀ {p s r t}, Kept start s.grid → ask p s = (r, t) → ∀ b, r ≠ .error (.breakdown b)

end Evaluation

end GridCalc
