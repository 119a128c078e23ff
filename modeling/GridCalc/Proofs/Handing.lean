import GridCalc.Proofs.Failing

/-!
# Faults that are handed on

A formula fails by itself or because a cell that it refers to has failed, and then with the same
fault. Of itself it fails for a function or its arguments, for a division by zero, for a cell that
shows no number and for a region outside the table. The fault of a region where a value is wanted is
none of these if the formula has been parsed. So it can only be handed on, and no table has it in
which no cell held it before.
-/

set_option autoImplicit false

namespace GridCalc

/-- The fault of a region where a value is wanted, or one that cannot be told from it. -/
def Fault.IsLoose (f : Fault) : Prop :=
  f.category = .evaluation ∧ f.message = "Ranges can only be used in functions"

example : Fault.rangeValue.IsLoose := ⟨rfl, rfl⟩

namespace Fault

theorem not_isLoose_of_category {f : Fault} (h : f.category ≠ .evaluation) : ¬ f.IsLoose :=
  fun hf => h hf.1

theorem not_isLoose_of_last {f : Fault} {s t : String} {c : Char} (hf : f.message = s ++ t)
    (ht : t.toList.getLast? = some c) (hc : c ≠ 's') : ¬ f.IsLoose := by
  intro hloose
  have hlast : (s ++ t).toList.getLast? = some c := by
    rw [String.toList_append, List.getLast?_append, ht]
    rfl
  have hs : "Ranges can only be used in functions".toList.getLast? = some 's' := by decide
  rw [← hf, hloose.2, hs] at hlast
  exact hc (Option.some.inj hlast).symm

theorem not_isLoose_unsettled (name : String) : ¬ (unsettled name).IsLoose :=
  not_isLoose_of_last (t := " could not be evaluated") (c := 'd') rfl (by decide) (by decide)

theorem not_isLoose_regionOutside (region : String) : ¬ (regionOutside region).IsLoose :=
  not_isLoose_of_last (t := " is outside the table") (c := 'e') rfl (by decide) (by decide)

theorem not_isLoose_divisionByZero : ¬ divisionByZero.IsLoose := fun h => absurd h.2 (by decide)

theorem not_isLoose_outsideTable : ¬ outsideTable.IsLoose := fun h => absurd h.2 (by decide)

theorem Arises.not_isLoose {functions : Functions} {a : Arena} {f : Fault}
    (h : f.Arises functions a) : ¬ f.IsLoose := by
  cases h with
  | computed hmem =>
    simp only [List.mem_cons, List.not_mem_nil, or_false] at hmem
    obtain rfl | rfl | rfl := hmem
    · exact not_isLoose_divisionByZero
    · exact not_isLoose_of_category (by decide)
    · exact not_isLoose_of_category (by decide)
  | unsettled => exact not_isLoose_unsettled _
  | regionOutside => exact not_isLoose_regionOutside _
  | unknownFunction _ hfind =>
    obtain ⟨other, rfl, -⟩ := Functions.find_error hfind
    exact not_isLoose_of_category (by simp [category])
  | _ => exact not_isLoose_of_category (by simp [category])

end Fault

def Firm {α : Type} (r : Except Stop α) : Prop := ∀ f, r = .error (.fault f) → ¬ f.IsLoose

/-- The table has that arena, its formulas are rooted in it, and no cell holds a loose fault. -/
structure Grid.Tidy (a : Arena) (g : Grid) : Prop where
  arena : g.arena = a
  rooted : g.Rooted
  firm : ∀ p f, g.content p = .error f → ¬ f.IsLoose

namespace Cell

variable {c : Cell} {a b : Arena} {p : Position} {s : String}

theorem content_cloned_error {d : Direction} {offset : Int} {f : Fault}
    (h : (c.cloned d offset).content = .error f) : c.content = .error f := by
  obtain ⟨_, _, _, -, hsame⟩ | ⟨-, hsame⟩ := c.cloned_cases d offset
  · rw [hsame] at h
    cases h
  · exact hsame ▸ h

theorem Read.filled (h : Read p s a c b) (ha : Filled a) : Filled b := by
  cases h with
  | formula _ hparse | unparsed _ hparse =>
    obtain ⟨-, rfl⟩ := Prod.ext_iff.1 hparse
    exact .parse _ _ ha
  | _ => exact ha

theorem Read.firm (h : Read p s a c b) {f : Fault} (hf : c.content = .error f) : ¬ f.IsLoose := by
  cases h with
  | formula | clone => cases hf
  | unparsed _ hparse =>
    cases hf
    obtain ⟨f', he, hcategory⟩ | ⟨_, _, _, _, _, he, _⟩ := Formula.parse_error hparse
    · cases he
      obtain ⟨-, hf⟩ | ⟨-, hf⟩ := hcategory
      · exact Fault.not_isLoose_of_category (by simp [hf])
      · exact Fault.not_isLoose_of_category (by simp [hf])
    · cases he
  | malformed hcategory =>
    cases hf
    exact Fault.not_isLoose_of_category (by simp [hcategory])
  | literal _ hne => exact absurd hf (hne f)

end Cell

namespace Grid

variable {a : Arena} {g : Grid}

theorem tidy_iff : g.Tidy a ↔ g.Throughout a fun c => ∀ f, c = .error f → ¬ f.IsLoose :=
  ⟨fun h => ⟨h.arena, h.rooted, h.firm⟩, fun h => ⟨h.arena, h.rooted, h.holds⟩⟩

theorem tidy_ofText {text : String} {log : Array Event} (h : Grid.ofText text = .ok (g, log)) :
    Filled g.arena ∧
      ∀ a, g.arena.Grows a → a.WellFormed → ({ g with arena := a } : Grid).Tidy a := by
  have hP : Cell.Inherited text Filled (fun _ _ c => ∀ f, c.content = .error f → ¬ f.IsLoose) := by
    refine ⟨.empty, fun _ _ => nofun, ?_, ?_, fun hc f hf => hc f ?_, fun ha _ hc => ?_⟩
    · rintro _ _ _ ⟨⟩
      exact fun h => absurd h.2 (by decide)
    · rintro _ _ _ ⟨⟩
      exact Fault.not_isLoose_outsideTable
    · exact Cell.content_cloned_error hf
    · have hread := Cell.ofText_cases hc
      exact ⟨hread.filled ha, fun _ hf => hread.firm hf, fun _ _ hx => hx⟩
  obtain ⟨hfilled, hfirm⟩ := holds_ofText hP h
  have hrooted : ∀ p, (g.cellAt p).Rooted g.arena := fun p _ _ _ hc => (rooted_ofText h).root hc
  refine ⟨hfilled, fun a hgrows ha => ⟨rfl, ⟨ha, fun {p root shift x} hc => ?_⟩, hfirm⟩⟩
  exact (hrooted p).grows hgrows root shift x hc

end Grid

namespace Evaluation
open Grid Inquiry Progress

theorem firm_formulaValue {a : Arena} {ctx : Context} {root : NodeId} {shift : Position}
    {s t : Progress} (hs : s.grid.Tidy a) (hsound : a.SoundAt root) (hregion : ¬ a.RegionAt root)
    {v : Except Stop Float} (h : formulaValue ctx root shift s = (v, t)) : Firm v := by
  have hP : Content.Lasting ctx.functions a fun c => ∀ f, c = .error f → ¬ f.IsLoose := by
    refine ⟨nofun, ?_, ?_⟩
    · rintro _ ⟨⟩
      exact Fault.not_isLoose_of_category (by decide)
    · rintro f harises _ ⟨⟩
      exact harises.not_isLoose
  have ht := (passes_rootValue (passage_throughout a _)
    (settleWithin_throughout hP ctx.limit) root).of_run h (tidy_iff.1 hs)
  rintro f rfl
  exact rootValue_throughout hP (settle_settles ctx) hsound hregion h ht f rfl

/-- Whether a formula is parsed or not, all formulas parsed before stand where they stood, and the
arena is well formed. The root of a formula that has been parsed is no region, and under it each
place refers to smaller ones, to regions only in calls. So in all larger arenas its value is
worked out downwards; and it fails for a region where a value is wanted only if it refers to a
cell with that fault, and never in a tidy table. -/
theorem parse_fills {formula : String} {here : Position} {a b : Arena} {r : Except Stop NodeId}
    (ha : Filled a) (h : Formula.parse formula here a = (r, b)) :
    a.Grows b ∧ b.WellFormed ∧ ∀ root, r = .ok root →
      (root < b.size ∧ ¬ b.RegionAt root ∧ ∀ x y n, b.Part root x → b.node? x = some n →
        y ∈ n.children → y < x ∧ (b.RegionAt y → ∃ name arguments, n = .call name arguments)) ∧
      ∀ c, b.Grows c → (∀ x n, c.Part root x → c.node? x = some n → Descends c x n) ∧
        ∀ (ctx : Context) (shift : Position) (s t : Progress) (v : Except Stop Float),
          s.grid.arena = c → formulaValue ctx root shift s = (v, t) →
          (∀ f, v = .error (.fault f) → f.IsLoose →
            ∃ p, s.grid.Refers root shift p ∧ t.grid.content p = .error f) ∧
          (s.grid.Tidy c → Firm v) := by
  have hgrows : a.Grows b := Formula.parse_grows (congrArg Prod.snd h)
  have hwell : b.WellFormed := Formula.parse_wellFormed (congrArg Prod.snd h) ha.wellFormed
  refine ⟨hgrows, hwell, ?_⟩
  rintro root rfl
  obtain ⟨_, _, -, -, hspells, hregion⟩ := Formula.parse_ok h
  have hlt := hspells.lt_size
  refine ⟨⟨hlt, hregion, fun x y n _ hn hy => (hwell x n hn).child hy⟩, fun c hc => ?_⟩
  have hsound := hwell.soundAt hc hlt
  have hregion' : ¬ c.RegionAt root := fun hr => hregion ((hc.regionAt hlt).1 hr)
  refine ⟨fun x n hx hn => descends_of_sound (Arena.lt_size_of_node hn) (hsound x n hx hn), ?_⟩
  rintro ctx shift s t v rfl hrun
  refine ⟨?_, fun hs => firm_formulaValue hs hsound hregion' hrun⟩
  rintro f rfl hf
  exact (rootValue_handsOn (settle_settles ctx) hsound hregion' hrun).resolve_left
    fun harises => harises.not_isLoose hf

def heldFault : Progress where
  grid := ⟨1, 1, #v[#v[.ofFault (.noted .evaluation "Ranges can only be used in functions")]],
    ⟨#[.relative ⟨0, 0⟩, .relative ⟨0, 0⟩, .binary .subtract 0 1]⟩⟩

def oneText : Grid := ⟨1, 1, #v[#v[⟨.text "x", .pending⟩]], .empty⟩

def besideText : Progress where
  grid := { oneText with arena := heldFault.grid.arena }

theorem parse_fills_heldFault :
    Formula.parse "A1-A1" .origin .empty = (.ok 2, heldFault.grid.arena) ∧
      heldFault.grid.arena.WellFormed ∧
      (formulaValue ⟨100, .builtin⟩ 2 .origin heldFault).1 =
        .error (.fault (.noted .evaluation "Ranges can only be used in functions")) ∧
      (∃ p, heldFault.grid.Refers 2 .origin p ∧
        (formulaValue ⟨100, .builtin⟩ 2 .origin heldFault).2.grid.content p =
          .error (.noted .evaluation "Ranges can only be used in functions")) ∧
      Grid.ofText "x" = .ok (oneText, #[]) ∧
      Firm (formulaValue ⟨100, .builtin⟩ 2 .origin besideText).1 := by
  have hparse : Formula.parse "A1-A1" .origin .empty = (.ok 2, heldFault.grid.arena) := by
    decide +kernel
  have hvalue : (formulaValue ⟨100, .builtin⟩ 2 .origin heldFault).1 =
      .error (.fault (.noted .evaluation "Ranges can only be used in functions")) := by
    decide +kernel
  have hread : Grid.ofText "x" = .ok (oneText, #[]) := ok_of_toOption (by decide +kernel)
  obtain ⟨hgrows, hwell, hroot⟩ := parse_fills .empty hparse
  have hends := ((hroot 2 rfl).2 _ (.refl _)).2 ⟨100, .builtin⟩ .origin
  have htidy : besideText.grid.Tidy heldFault.grid.arena := (tidy_ofText hread).2 _ hgrows hwell
  exact ⟨hparse, hwell, hvalue,
    (hends heldFault _ _ rfl (Prod.ext hvalue rfl)).1 _ rfl ⟨rfl, rfl⟩, hread,
    (hends besideText _ _ rfl rfl).2 htidy⟩

/-- Beside a cell with the fault, a formula that has been parsed does end with it. -/
theorem formulaValue_isLoose_heldFault :
    ¬ ∀ (formula : String) (here : Position) (a b : Arena) (root : NodeId), Filled a →
      Formula.parse formula here a = (.ok root, b) → ∀ (ctx : Context) (shift : Position)
        (s t : Progress) (f : Fault), s.grid.arena = b →
          formulaValue ctx root shift s = (.error (.fault f), t) → ¬ f.IsLoose := by
  intro h
  have hparse : Formula.parse "A1-A1" .origin .empty = (.ok 2, heldFault.grid.arena) := by
    decide +kernel
  have hvalue : (formulaValue ⟨100, .builtin⟩ 2 .origin heldFault).1 =
      .error (.fault (.noted .evaluation "Ranges can only be used in functions")) := by
    decide +kernel
  exact h "A1-A1" .origin .empty _ 2 .empty hparse ⟨100, .builtin⟩ .origin heldFault _ _ rfl
    (Prod.ext hvalue rfl) ⟨rfl, rfl⟩

end Evaluation

end GridCalc
