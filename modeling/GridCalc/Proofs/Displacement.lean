import GridCalc.Proofs.Calls
import GridCalc.Proofs.Roots
import GridCalc.Proofs.Spelling

/-!
# Displacement of references

A formula is written at one position of a table, and a cell that shows it elsewhere has the way from
there to itself for its shift. Rows of copies add a step down, clones the way from their source, and
nothing else ever changes a shift. So the cell sees each relative reference as far from itself as it
is from where the formula is written, and each absolute one where it is.
-/

set_option autoImplicit false

namespace GridCalc

namespace Position

theorem wayFrom_origin (p : Position) : p.wayFrom origin = p := by
  simp [wayFrom, origin]

theorem wayFrom_below (row column : Int) (s : Position) :
    (⟨row + 1, column⟩ : Position).wayFrom (s.move Direction.up.reverse 1) =
      (⟨row, column⟩ : Position).wayFrom s := by
  simp only [wayFrom, move, Direction.reverse, Direction.step, mk.injEq]
  omega

theorem wayFrom_shift_wayFrom (p q s : Position) :
    p.wayFrom (s.shift (p.wayFrom q)) = q.wayFrom s := by
  simp only [wayFrom, Position.shift, mk.injEq]
  omega

theorem shift_eq_wayFrom (q p s : Position) :
    q.shift s = p.shift (q.wayFrom (p.wayFrom s)) := by
  simp only [wayFrom, Position.shift, mk.injEq]
  omega

end Position

/-- The formula is written at `o`, and was parsed there into what has become the arena. -/
def WrittenAt (text : String) (o : Position) (formula : String) (root : NodeId) (arena : Arena) :
    Prop :=
  ∃ a b, StandsAt text o ("=" ++ formula) a ∧ Formula.parse formula o a = (.ok root, b) ∧
    b.Grows arena

theorem WrittenAt.grows {text formula : String} {o : Position} {root : NodeId} {a b : Arena}
    (hab : a.Grows b) (h : WrittenAt text o formula root a) : WrittenAt text o formula root b := by
  obtain ⟨c, d, hstands, hparse, hgrows⟩ := h
  exact ⟨c, d, hstands, hparse, hgrows.trans hab⟩

namespace Cell

variable {c : Cell} {a b : Arena} {p shift : Position} {s : String} {root : NodeId} {x : Float}

theorem Read.of_formula (h : Read p s a c b) (hc : c.content = .formula root shift x) :
    ∃ formula, s = "=" ++ formula ∧ shift = .origin ∧
      Formula.parse formula p a = (.ok root, b) := by
  cases h with
  | formula hs hparse =>
    cases hc
    exact ⟨_, hs, rfl, hparse⟩
  | literal hliteral =>
    subst hc
    cases hliteral
  | _ => cases hc

def Displaced (text : String) (a : Arena) (p : Position) (c : Cell) : Prop :=
  ∀ root shift x, c.content = .formula root shift x →
    ∃ formula, WrittenAt text (p.wayFrom shift) formula root a

theorem displaced_inherited (text : String) :
    Inherited text (fun _ => True) (Displaced text) := by
  refine ⟨trivial, fun _ _ => nofun, fun _ _ => nofun, fun _ _ => nofun, ?_, ?_⟩
  · intro a row column c hc root shift x hformula
    obtain ⟨root', shift', x', hcontent, hsame⟩ | ⟨hne, hsame⟩ := c.cloned_cases .up 1
    · rw [hsame] at hformula
      cases hformula
      rw [Position.wayFrom_below]
      exact hc _ _ _ hcontent
    · exact absurd (hsame ▸ hformula) (hne root shift x)
  · intro p s a c b _ hstands hread
    obtain ⟨hgrows, -, -⟩ := (ofText_cases hread).rooted
    refine ⟨trivial, ?_, ?_⟩
    · intro root shift x hc
      obtain ⟨formula, rfl, rfl, hparse⟩ := (ofText_cases hread).of_formula hc
      rw [Position.wayFrom_origin]
      exact ⟨formula, a, b, hstands, hparse, .refl b⟩
    · intro q y hy root shift x hc
      obtain ⟨formula, hwritten⟩ := hy root shift x hc
      exact ⟨formula, hwritten.grows hgrows⟩

end Cell

namespace Grid

variable {text : String} {g : Grid} {log : Array Event} {p shift : Position} {root : NodeId}

theorem FormulaAt.written (hread : ofText text = .ok (g, log)) (h : g.FormulaAt p root shift) :
    ∃ formula, WrittenAt text (p.wayFrom shift) formula root g.arena := by
  obtain ⟨-, hcells⟩ := holds_ofText (Cell.displaced_inherited text) hread
  induction h with
  | own hc => exact hcells _ _ _ _ hc
  | clone hc _ ih =>
    rw [Position.wayFrom_shift_wayFrom]
    exact ih

end Grid

namespace Evaluation
open Grid

variable {text : String} {g h : Grid} {log : Array Event} {p shift : Position} {root : NodeId}
  {x : Float}

/-- Whatever calls have been made, a cell with a formula and a shift has it from the position that
lies the shift before it, where the formula is written and was parsed. Its value is that of the
formula with each relative reference as far from the cell as it is from there. -/
theorem formula_keepsDisplacement (hread : Grid.ofText text = .ok (g, log)) (hreached : Reached g h)
    (hp : h.content p = .formula root shift x) :
    h.arena = g.arena ∧ ∃ o, o = p.wayFrom shift ∧ g.contains o ∧
      ∃ formula a b tokens t, StandsAt text o ("=" ++ formula) a ∧
        Formula.parse formula o a = (.ok root, b) ∧ b.Grows g.arena ∧
        scan formula = .ok tokens ∧ Formula.Writes o tokens t ∧ g.arena.Spells root t ∧
        ∀ ask functions, Asks ask → Same g.arena (rootValue ask functions shift root)
          (treeValue ask functions (fun q => p.shift (q.wayFrom o)) false t) := by
  have hkept : Kept g h := hreached.changes.kept (fresh_ofText hread).kept
  obtain ⟨formula, a, b, hstands, hparse, hgrows⟩ := (hkept.formula hp).written hread
  obtain ⟨tokens, t, hscan, hwrites, hspells, -⟩ := Formula.parse_ok hparse
  have hmoves : (fun q : Position => q.shift shift) =
      fun q => p.shift (q.wayFrom (p.wayFrom shift)) :=
    funext fun q => q.shift_eq_wayFrom p shift
  refine ⟨hkept.alike.arena, _, rfl, contains_of_standsAt hread hstands, formula, a, b, tokens, t,
    hstands, hparse, hgrows, hscan, hwrites, hspells.grows hgrows, fun ask functions hask => ?_⟩
  rw [← hmoves]
  exact rootValue_tree hask (hspells.grows hgrows)

def repeatedReference : Grid :=
  ⟨3, 2, #v[#v[⟨.number 2.0, .pending⟩, ⟨.formula 0 .origin 0.0, .pending⟩],
    #v[⟨.number 2.0, .pending⟩, ⟨.formula 0 ⟨1, 0⟩ 0.0, .pending⟩],
    #v[⟨.number 7.0, .pending⟩, ⟨.clone .up 1, .pending⟩]], ⟨#[.relative ⟨0, 0⟩]⟩⟩

theorem formula_keepsDisplacement_repeated :
    Grid.ofText "2|=<\n...1\n7|:^1" = .ok (repeatedReference, #[]) ∧
      (Call.evaluate.run ⟨100, .builtin⟩ { grid := repeatedReference }).2.grid.content ⟨2, 1⟩ =
        .formula 0 ⟨2, 0⟩ 7.0 ∧
      (∃ formula a, StandsAt "2|=<\n...1\n7|:^1" ⟨0, 1⟩ ("=" ++ formula) a) ∧
      ∀ ask functions, Asks ask → Same repeatedReference.arena (rootValue ask functions ⟨2, 0⟩ 0)
        (nested (reference ask ⟨2, 0⟩)) := by
  have hread : Grid.ofText "2|=<\n...1\n7|:^1" = .ok (repeatedReference, #[]) :=
    ok_of_toOption (by decide +kernel)
  have hp :
      (Call.evaluate.run ⟨100, .builtin⟩ { grid := repeatedReference }).2.grid.content ⟨2, 1⟩ =
      .formula 0 ⟨2, 0⟩ 7.0 := by decide +kernel
  have hreached : Reached repeatedReference
      (Call.evaluate.run ⟨100, .builtin⟩ { grid := repeatedReference }).2.grid := .after _ _ .start
  obtain ⟨-, o, rfl, -, formula, a, b, tokens, t, hstands, -, -, -, -, hspells, hvalue⟩ :=
    formula_keepsDisplacement hread hreached hp
  obtain rfl : t = .relative ⟨0, 0⟩ := hspells.unique (.relative rfl)
  exact ⟨hread, hp, ⟨formula, a, hstands⟩, hvalue⟩

end Evaluation

end GridCalc
