import GridCalc.Proofs.Dependence
import GridCalc.Proofs.Parsing
import GridCalc.Proofs.Reading

/-!
# The formulas of a table that has been read

Reading a table only adds to its arena. In the end the arena is well formed, and each cell with a
formula has a root in it that is no region.
-/

set_option autoImplicit false

namespace GridCalc

def Cell.Rooted (a : Arena) (c : Cell) : Prop :=
  ∀ root shift x, c.content = .formula root shift x → root < a.size ∧ ¬ a.RegionAt root

namespace Cell

variable {c : Cell} {a b : Arena}

theorem Rooted.grows (hab : a.Grows b) (h : c.Rooted a) : c.Rooted b := by
  intro root shift x hc
  obtain ⟨hlt, hregion⟩ := h root shift x hc
  exact ⟨Nat.lt_of_lt_of_le hlt hab.size, fun hr => hregion ((hab.regionAt hlt).1 hr)⟩

theorem rooted_empty (a : Arena) : empty.Rooted a := by simp [Rooted, empty]

theorem rooted_ofFault (a : Arena) (f : Fault) : (ofFault f).Rooted a := by simp [Rooted, ofFault]

theorem Rooted.cloned (h : c.Rooted a) (d : Direction) (offset : Int) :
    (c.cloned d offset).Rooted a := by
  intro root shift x hc
  obtain ⟨root', shift', x', hformula, hsame⟩ | ⟨-, hsame⟩ := c.cloned_cases d offset
  · rw [hsame] at hc
    cases hc
    exact h _ _ _ hformula
  · exact h _ _ _ (hsame ▸ hc)

theorem Read.rooted {p : Position} {s : String} (h : Read p s a c b) :
    a.Grows b ∧ (a.WellFormed → b.WellFormed) ∧ c.Rooted b := by
  cases h with
  | formula _ hparse =>
    obtain ⟨_, t, _, _, hspells, hregion⟩ := Formula.parse_ok hparse
    have hb := congrArg Prod.snd hparse
    refine ⟨Formula.parse_grows hb, Formula.parse_wellFormed hb, ?_⟩
    rintro _ _ _ ⟨⟩
    exact ⟨hspells.lt_size, hregion⟩
  | unparsed _ hparse =>
    have hb := congrArg Prod.snd hparse
    exact ⟨Formula.parse_grows hb, Formula.parse_wellFormed hb, rooted_ofFault b _⟩
  | clone => exact ⟨.refl a, id, by simp [Rooted]⟩
  | malformed => exact ⟨.refl a, id, rooted_ofFault a _⟩
  | literal hliteral =>
    refine ⟨.refl a, id, ?_⟩
    rintro root shift x rfl
    cases hliteral

end Cell

namespace Grid

variable {g : Grid} {log : Array Event} {text : String}

/-- The formulas of a table are rooted in a well-formed arena. -/
structure Rooted (g : Grid) : Prop where
  wellFormed : g.arena.WellFormed
  root : ∀ {p root shift x}, g.content p = .formula root shift x →
    root < g.arena.size ∧ ¬ g.arena.RegionAt root

theorem Rooted.set (hg : g.Rooted) (p : Position) {c : Cell} (hc : c.Rooted g.arena) :
    (g.set p c).Rooted := by
  refine ⟨(arena_set g p c).symm ▸ hg.wellFormed, fun {q root shift x} hq => ?_⟩
  rw [arena_set]
  rw [content] at hq
  obtain hset | hset := cellAt_set_cases g p q c
  · exact hc root shift x (hset ▸ hq)
  · exact hg.root (hset ▸ hq)

theorem rooted_ofText (h : Grid.ofText text = .ok (g, log)) : g.Rooted := by
  have hP : Cell.Inherited text Arena.WellFormed (fun a _ c => c.Rooted a) := by
    refine ⟨Arena.wellFormed_empty, fun a _ => Cell.rooted_empty a,
      fun a _ => Cell.rooted_ofFault a _, fun a _ => Cell.rooted_ofFault a _,
      fun hc => hc.cloned .up 1, fun ha _ hc => ?_⟩
    obtain ⟨hgrows, hwell, hrooted⟩ := (Cell.ofText_cases hc).rooted
    exact ⟨hwell ha, hrooted, fun _ x hx => hx.grows hgrows⟩
  obtain ⟨hwell, hcells⟩ := holds_ofText hP h
  exact ⟨hwell, fun {p root shift x} hc => hcells p root shift x hc⟩

theorem Rooted.formulaAt (hg : g.Rooted) {p shift : Position} {root : NodeId}
    (h : g.FormulaAt p root shift) : root < g.arena.size ∧ ¬ g.arena.RegionAt root := by
  induction h with
  | own hc => exact hg.root hc
  | clone _ _ ih => exact ih

end Grid

end GridCalc
