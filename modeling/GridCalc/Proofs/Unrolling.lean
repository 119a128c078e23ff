import GridCalc.Proofs.Agreement
import GridCalc.Proofs.Copies

/-!
# Evaluations of copies and of clones

A table with rows of copies and the one that has rows of clones in their place come to the same as
far as the first holds at each copy what a clone of the cell above would come to. A copy of anything
that has not to be worked out does so, and a copy of a formula if it passes on the fault of the cell
above. But the copy of a clone looks from its own place, and the copy of a formula works it out
again.
-/

set_option autoImplicit false

namespace GridCalc

namespace Grid
open Inquiry Relation

section

variable {g h : Grid} {functions : Functions} {shift p : Position}

theorem Alike.regionValues (ha : g.Alike h) (r : Region) :
    Inquiry.regionValues h r = Inquiry.regionValues g r := by
  simp only [Inquiry.regionValues, ha.contains]

theorem Alike.checkForms (ha : g.Alike h) (name : String) (index : Nat) (kinds : List ArgumentKind)
    (ids : List NodeId) :
    Inquiry.checkForms h name index kinds ids = Inquiry.checkForms g name index kinds ids := by
  induction kinds generalizing index ids with
  | nil => rfl
  | cons kind kinds ih =>
    cases ids with
    | nil => rfl
    | cons id ids => simp only [Inquiry.checkForms, nodeAt, ha.arena, ih]

theorem Alike.argumentValues (ha : g.Alike h) (part : NodeId → Inquiry Float) (ids : List NodeId) :
    Inquiry.argumentValues h shift part ids = Inquiry.argumentValues g shift part ids := by
  induction ids with
  | nil => rfl
  | cons id ids ih => simp only [Inquiry.argumentValues, nodeAt, ha.arena, ha.regionValues, ih]

theorem Alike.nodeValue (ha : g.Alike h) (part : NodeId → Inquiry Float) (n : Node) :
    Inquiry.nodeValue h functions shift part n = Inquiry.nodeValue g functions shift part n := by
  cases n with
  | call name arguments =>
    simp only [Inquiry.nodeValue, checkArguments, ha.checkForms, ha.argumentValues]
  | _ => rfl

theorem Alike.valueWithin (ha : g.Alike h) (levels : Nat) (id : NodeId) :
    Inquiry.valueWithin h functions shift levels id =
      Inquiry.valueWithin g functions shift levels id := by
  induction levels generalizing id with
  | zero => rfl
  | succ levels ih =>
    have hpart : Inquiry.valueWithin h functions shift levels =
        Inquiry.valueWithin g functions shift levels := funext ih
    simp only [Inquiry.valueWithin, nodeAt, ha.arena, ha.nodeValue, hpart]

theorem Alike.formulaContent (ha : g.Alike h) (root : NodeId) :
    Inquiry.formulaContent h functions shift root =
      Inquiry.formulaContent g functions shift root := by
  simp only [Inquiry.formulaContent, Inquiry.formulaValue, ha.arena, ha.valueWithin]

theorem Alike.contentInquiry (ha : g.Alike h) (c : Content) :
    c.inquiry h functions p = c.inquiry g functions p := by
  cases c with
  | formula root shift x => exact ha.formulaContent root
  | clone d offset =>
    refine congrArg (look _) (funext fun c => ?_)
    cases c with
    | formula root shift x => exact ha.formulaContent root
    | _ => rfl
  | _ => rfl

theorem Alike.inquiry (ha : g.Alike h) (hp : h.content p = g.content p) :
    h.inquiry functions p = g.inquiry functions p := by
  rw [Grid.inquiry, hp, ha.contentInquiry, Grid.inquiry]

end

section

variable {g h t u : Grid} {functions : Functions} {p q shift : Position} {root : NodeId} {x : Float}

theorem Unrolls.leads (hgh : g.Unrolls h) (ht : Faithful g functions t)
    (htdone : ∀ p, t.phase p = .done) (hnot : ¬ Looped g functions t q)
    (hsolves : g.cellAt q ≠ h.cellAt q → Evaluation.Solves functions h t q) :
    Leads t.known (h.inquiry functions q) (.done (.ok (t.content q))) := by
  -- Cells that are the same ask the same in both tables, and the others solve the equations of
  -- clones.
  by_cases hsame : g.cellAt q = h.cellAt q
  · obtain ⟨_, hl⟩ := ht.leads_of_not_looped (htdone q) hnot
    rw [hgh.alike.inquiry (by rw [content, content, hsame])]
    exact hl.mono knownBefore_within
  · exact Evaluation.leads_of_solves (hgh.alike.symm.trans ht.alike) htdone (hsolves hsame)

theorem Faithful.solves_of_agree (hu : Faithful h functions u) (hudone : ∀ p, u.phase p = .done)
    (ht : h.Alike t) (htdone : ∀ p, t.phase p = .done) (hnot : ¬ Looped h functions u q)
    (hagree : ∀ z, ReflTransGen h.Depends q z → t.content z = u.content z) :
    Evaluation.Solves functions h t q := by
  obtain ⟨_, hl⟩ := hu.leads_of_not_looped (hudone q) hnot
  rw [← hagree q .refl] at hl
  exact Evaluation.solves_of_leads ht htdone
    (hu.leads_of_agree ht htdone hl fun z _ hz => hagree z (.single hz))

theorem Unrolls.agree_iff (hgh : g.Unrolls h) (ht : Faithful g functions t)
    (hu : Faithful h functions u) (htdone : ∀ p, t.phase p = .done)
    (hudone : ∀ p, u.phase p = .done) :
    (∀ q, ReflTransGen h.Depends p q → t.content q = u.content q) ↔
      ∀ q, ReflTransGen h.Depends p q → (t.content q = .error .loop ↔ u.content q = .error .loop) ∧
        (g.cellAt q ≠ h.cellAt q → t.content q ≠ .error .loop →
          Evaluation.Solves functions h t q) := by
  have hlike : h.Alike t := hgh.alike.symm.trans ht.alike
  constructor
  · intro hagree q hq
    have hsame := hagree q hq
    refine ⟨by rw [hsame], fun _ hne => ?_⟩
    exact hu.solves_of_agree hudone hlike htdone (fun hloop => hne (hsame.trans hloop.1))
      fun z hz => hagree z (hq.trans hz)
  · intro hcell q hq
    refine hu.agrees_of_leads hudone hlike htdone fun z hz => ?_
    obtain ⟨hloops, hsolves⟩ := hcell z (hq.trans hz)
    by_cases he : t.content z = .error .loop
    · exact .inl (he.trans (hloops.1 he).symm)
    · exact .inr ⟨fun hloop => he (hloops.2 hloop.1),
        hgh.leads ht htdone (fun hloop => he hloop.1) fun hne => hsolves hne he⟩

theorem Unrolls.agree_iff_of_no_loop (hgh : g.Unrolls h) (ht : Faithful g functions t)
    (hu : Faithful h functions u) (htdone : ∀ p, t.phase p = .done)
    (hudone : ∀ p, u.phase p = .done) (hp : ¬ h.MeetsLoop p)
    (hfirst : ∀ q, ReflTransGen h.Depends p q → ¬ g.MeetsLoop q) :
    (∀ q, ReflTransGen h.Depends p q → t.content q = u.content q) ↔
      ∀ q, ReflTransGen h.Depends p q → g.cellAt q ≠ h.cellAt q →
        Evaluation.Solves functions h t q := by
  have hlike : h.Alike t := hgh.alike.symm.trans ht.alike
  have hnot : ∀ q, ReflTransGen h.Depends p q → ¬ Looped h functions u q := fun q hq hloop =>
    hp (.of_reflTrans hq (hu.meetsLoop hloop.2))
  constructor
  · intro hagree q hq _
    exact hu.solves_of_agree hudone hlike htdone (hnot q hq) fun z hz => hagree z (hq.trans hz)
  · intro hsolves q hq
    refine hu.agrees_of_leads hudone hlike htdone fun z hz => ?_
    have hz := hq.trans hz
    exact .inr ⟨hnot z hz, hgh.leads ht htdone (fun hloop => hfirst z hz (ht.meetsLoop hloop.2))
      (hsolves z hz)⟩

theorem solves_cloneAbove (hq : h.cellAt q = .cloneAbove) (hin : h.contains (q.move .up 1)) :
    Evaluation.Solves functions h t q ↔
      (∀ root shift x, t.content (q.move .up 1) = .formula root shift x →
        Evaluation.Yields functions t root (shift.move .down 1) (t.content q)) ∧
      ((∀ root shift x, t.content (q.move .up 1) ≠ .formula root shift x) →
        t.content q = t.content (q.move .up 1)) := by
  have hcontent : h.content q = .clone .up 1 := by rw [content, hq, Cell.cloneAbove]
  have hway : ∀ shift : Position, shift.shift (q.wayFrom (q.move .up 1)) = shift.move .down 1 :=
    fun shift => (Position.move_reverse_eq_shift shift q .up 1).symm
  unfold Evaluation.Solves
  rw [hcontent]
  simp only [hway]
  exact ⟨And.right, fun hrest => ⟨fun hout => absurd hin hout, hrest⟩⟩

theorem Unrolls.solves_of_literal (hgh : g.Unrolls h) (ht : Faithful g functions t)
    (htdone : ∀ p, t.phase p = .done) (hne : g.cellAt q ≠ h.cellAt q)
    (hlit : ¬ (g.content (q.move .up 1)).isDeferred) : Evaluation.Solves functions h t q := by
  obtain ⟨-, hin, hclone, hcopy⟩ := (hgh.cell q).resolve_left (Ne.symm hne)
  have hcontent : g.content q = g.content (q.move .up 1) := by
    rw [content, hcopy, Cell.cloned_of_ne_formula fun root shift x hformula => hlit ?_, content]
    rw [content, hformula]
    rfl
  have habove := ht.content_of_literal (htdone (q.move .up 1)) hlit
  have hself := ht.content_of_literal (htdone q) (hcontent ▸ hlit)
  refine (solves_cloneAbove hclone (hgh.alike.contains.2 hin)).2
    ⟨fun root shift x hformula => ?_, fun _ => by rw [hself, habove, hcontent]⟩
  rw [← habove, hformula] at hlit
  exact absurd rfl hlit

/-- A copy of a formula is what a clone of it comes to if and only if it passes on its fault. -/
theorem Unrolls.solves_formula_iff (hgh : g.Unrolls h) (ht : Faithful g functions t)
    (htdone : ∀ p, t.phase p = .done) (hne : g.cellAt q ≠ h.cellAt q)
    (hloop : t.content q ≠ .error .loop)
    (habove : g.content (q.move .up 1) = .formula root shift x) :
    Evaluation.Solves functions h t q ↔
      ∀ f, t.content (q.move .up 1) = .error f → t.content q = .error f := by
  obtain ⟨-, hin, hclone, hcopy⟩ := (hgh.cell q).resolve_left (Ne.symm hne)
  have hcontent : g.content q = .formula root (shift.move .down 1) 0.0 := by
    rw [content, hcopy, Cell.content_cloned_formula habove, Direction.reverse]
  have hself := Evaluation.solves_of_faithful ht htdone hloop
  unfold Evaluation.Solves at hself
  rw [hcontent] at hself
  rw [solves_cloneAbove hclone (hgh.alike.contains.2 hin)]
  constructor
  · rintro ⟨-, hcopied⟩ f hf
    rw [hcopied (by simp [hf]), hf]
  · intro hpass
    have hsound := ht.sound _ _ (known_of_done (htdone (q.move .up 1)))
    refine ⟨fun root' shift' x' hformula => ?_, fun hnot => ?_⟩
    · obtain ⟨rfl, rfl⟩ :=
        formulaAt_unique (.own habove) (hsound.formulaAt root' shift' x' hformula)
      exact hself
    · have hfault : ∃ f, t.content (q.move .up 1) = .error f := by
        apply Classical.byContradiction
        intro hno
        obtain ⟨y, hy⟩ := hsound.value root shift (.own habove) fun f hf => hno ⟨f, hf⟩
        exact hnot root shift y hy
      obtain ⟨f, hf⟩ := hfault
      rw [hf, hpass f hf]

end

end Grid

namespace Evaluation
open Grid Relation

variable {text text' : String} {g : Grid} {log : Array Event} {line : List Char}
  {before after clones : List (List Char)} {ls : List Line} {count : Nat}

/-- A line that repeats the row above it may be written as so many rows of clones. Whatever the two
limits are, a cell and all that it can reach then come to the same if and only if the same ones of
them become the fault of a loop and the others among the copies hold in the first table what clones
of the cells above would come to there; and where no loops can be reached, the latter is enough. It
is so at copies of what has not to be worked out, and at those copies of formulas that pass on the
fault of the cell above. -/
theorem evaluate_unrolls (hread : Grid.ofText text = .ok (g, log))
    (htext : Text.lines text.toList = before ++ line :: after)
    (hbefore : Line.ofTexts 1 before = .ok ls) (habove : 0 < rowCount ls)
    (hline : Line.ofText (before.length + 1) line = .ok (.copies count))
    (htext' : Text.lines text'.toList = before ++ (clones ++ after))
    (hcount : clones.length = count) (hclones : ∀ s ∈ clones, Line.IsClones g.columns s) :
    ∃ h, Grid.ofText text' = .ok (h, log) ∧ g.Unrolls h ∧
      ∀ {functions : Functions} {m n : Nat} {t u : Progress}, 1 ≤ m → 1 ≤ n →
        evaluate ⟨m, functions⟩ { grid := g } = (.ok (), t) →
        evaluate ⟨n, functions⟩ { grid := h } = (.ok (), u) →
        (∀ p, (∀ q, ReflTransGen h.Depends p q → t.grid.cell? q = u.grid.cell? q) ↔
          ∀ q, ReflTransGen h.Depends p q →
            (t.grid.content q = .error .loop ↔ u.grid.content q = .error .loop) ∧
            (g.cellAt q ≠ h.cellAt q → t.grid.content q ≠ .error .loop →
              Solves functions h t.grid q)) ∧
        (∀ p, ¬ h.MeetsLoop p → (∀ q, ReflTransGen h.Depends p q → ¬ g.MeetsLoop q) →
          ((∀ q, ReflTransGen h.Depends p q → t.grid.cell? q = u.grid.cell? q) ↔
            ∀ q, ReflTransGen h.Depends p q → g.cellAt q ≠ h.cellAt q →
              Solves functions h t.grid q)) ∧
        ∀ q, g.cellAt q ≠ h.cellAt q →
          (¬ (g.content (q.move .up 1)).isDeferred → Solves functions h t.grid q) ∧
          ∀ root shift x, g.content (q.move .up 1) = .formula root shift x →
            t.grid.content q ≠ .error .loop →
            (Solves functions h t.grid q ↔
              ∀ f, t.grid.content (q.move .up 1) = .error f → t.grid.content q = .error f) := by
  obtain ⟨h, hread', hgh⟩ :=
    ofText_unrolls hread htext hbefore habove hline htext' hcount hclones
  refine ⟨h, hread', hgh, fun {functions m n t u} hm hn htrun hurun => ?_⟩
  have ht : Faithful g functions t.grid :=
    (evaluate_resting hm (resting_of_read hread) htrun).faithful
  have hu : Faithful h functions u.grid :=
    (evaluate_resting hn (resting_of_read hread') hurun).faithful
  have htdone := (evaluate_done htrun).2
  have hudone := (evaluate_done hurun).2
  have hcell := fun q => cell?_eq_iff (p := q)
    ((ht.alike.symm.trans hgh.alike).trans hu.alike) htdone hudone
  simp only [hcell]
  refine ⟨fun p => hgh.agree_iff ht hu htdone hudone,
    fun p hp hfirst => hgh.agree_iff_of_no_loop ht hu htdone hudone hp hfirst, fun q hne => ?_⟩
  exact ⟨hgh.solves_of_literal ht htdone hne, fun root shift x hformula hloop =>
    hgh.solves_formula_iff ht htdone hne hloop hformula⟩

def formulaAndCopy : Grid :=
  ⟨2, 1, #v[#v[⟨.formula 0 .origin 0.0, .pending⟩], #v[⟨.formula 0 ⟨1, 0⟩ 0.0, .pending⟩]],
    ⟨#[.number 2.0]⟩⟩

def formulaAndClone : Grid :=
  ⟨2, 1, #v[#v[⟨.formula 0 .origin 0.0, .pending⟩], #v[.cloneAbove]], ⟨#[.number 2.0]⟩⟩

theorem evaluate_unrolls_formula :
    Grid.ofText "=2\n...1" = .ok (formulaAndCopy, #[]) ∧
      Grid.ofText "=2\n :^" = .ok (formulaAndClone, #[]) ∧
      ∀ p, (evaluate ⟨1, .builtin⟩ { grid := formulaAndCopy }).2.grid.cell? p =
        (evaluate ⟨100, .builtin⟩ { grid := formulaAndClone }).2.grid.cell? p := by
  have hread : Grid.ofText "=2\n...1" = .ok (formulaAndCopy, #[]) :=
    ok_of_toOption (by decide +kernel)
  have hread' : Grid.ofText "=2\n :^" = .ok (formulaAndClone, #[]) :=
    ok_of_toOption (by decide +kernel)
  have ht : (evaluate ⟨1, .builtin⟩ { grid := formulaAndCopy }).1.toOption = some () := by
    decide +kernel
  have hu : (evaluate ⟨100, .builtin⟩ { grid := formulaAndClone }).1.toOption = some () := by
    decide +kernel
  have htext : Text.lines "=2\n...1".toList = [['=', '2']] ++ ['.', '.', '.', '1'] :: [] := by
    decide +kernel
  have hbefore : Line.ofTexts 1 [['=', '2']] = .ok [.row [['=', '2']]] :=
    ok_of_toOption (by decide +kernel)
  have hline : Line.ofText 2 ['.', '.', '.', '1'] = .ok (.copies 1) :=
    ok_of_toOption (by decide +kernel)
  have htext' : Text.lines "=2\n :^".toList = [['=', '2']] ++ ([[' ', ':', '^']] ++ []) := by
    decide +kernel
  have hclones : ∀ s ∈ [[' ', ':', '^']], Line.IsClones formulaAndCopy.columns s := by
    unfold Line.IsClones
    decide +kernel
  obtain ⟨h, hh, hunrolls, hagree⟩ :=
    evaluate_unrolls hread htext hbefore (by decide) hline htext' rfl hclones
  cases hread'.symm.trans hh
  obtain ⟨hloops, -, hcopies⟩ := hagree (by decide) (by decide) (Action.eq_ok ht) (Action.eq_ok hu)
  have hnone : ∀ w : Grid, (∀ p ∈ w.positions, w.content p ≠ .error .loop) →
      ∀ p, w.content p ≠ .error .loop := by
    intro w hw p
    by_cases hp : w.contains p
    · exact hw p (mem_positions.2 hp)
    · rw [content, cellAt_of_not_contains hp]
      simp [Cell.ofFault]
  have htnone := hnone (evaluate ⟨1, .builtin⟩ { grid := formulaAndCopy }).2.grid
    (by decide +kernel)
  have hunone := hnone (evaluate ⟨100, .builtin⟩ { grid := formulaAndClone }).2.grid
    (by decide +kernel)
  have habove : (evaluate ⟨1, .builtin⟩ { grid := formulaAndCopy }).2.grid.content ⟨0, 0⟩ =
      .formula 0 .origin 2.0 := by decide +kernel
  generalize (evaluate ⟨1, .builtin⟩ { grid := formulaAndCopy }).2 = t at *
  generalize (evaluate ⟨100, .builtin⟩ { grid := formulaAndClone }).2 = u at *
  refine ⟨hread, hread', fun p => (hloops p).2 (fun q _ => ⟨?_, fun hne _ => ?_⟩) p .refl⟩
  · exact iff_of_false (htnone q) (hunone q)
  · obtain rfl : q = ⟨1, 0⟩ := by
      obtain ⟨⟨⟨-, hrow'⟩, hcolumn, hcolumn'⟩, ⟨⟨hrow, -⟩, -⟩, -⟩ :=
        (hunrolls.cell q).resolve_left (Ne.symm hne)
      simp only [formulaAndCopy, Position.move, Direction.step] at hrow hrow' hcolumn hcolumn'
      obtain ⟨row, column⟩ := q
      simp only [Position.mk.injEq] at *
      omega
    have hformula : formulaAndCopy.content (Position.move ⟨1, 0⟩ .up 1) =
        .formula 0 .origin 0.0 := by decide +kernel
    refine ((hcopies _ hne).2 _ _ _ hformula (htnone _)).2 fun f hf => ?_
    cases habove.symm.trans hf

/-- The copy of a clone looks two rows up from its own place, a clone of it at what it has found. -/
theorem evaluate_copyOfClone_disagrees :
    Text.lines "1\n2\n:^2\n...1".toList =
        [['1'], ['2'], [':', '^', '2']] ++ ['.', '.', '.', '1'] :: [] ∧
      Line.ofText 4 ['.', '.', '.', '1'] = .ok (.copies 1) ∧
      Text.lines "1\n2\n:^2\n:^".toList =
        [['1'], ['2'], [':', '^', '2']] ++ ([[':', '^']] ++ []) ∧
      ∃ g h, Grid.ofText "1\n2\n:^2\n...1" = .ok (g, #[]) ∧
        Grid.ofText "1\n2\n:^2\n:^" = .ok (h, #[]) ∧
        (evaluate ⟨100, .builtin⟩ { grid := g }).1 = .ok () ∧
        (evaluate ⟨100, .builtin⟩ { grid := h }).1 = .ok () ∧
        (evaluate ⟨100, .builtin⟩ { grid := g }).2.grid.cell? ⟨3, 0⟩ =
          some ⟨.number 2.0, .done⟩ ∧
        (evaluate ⟨100, .builtin⟩ { grid := h }).2.grid.cell? ⟨3, 0⟩ =
          some ⟨.number 1.0, .done⟩ := by
  refine ⟨by decide +kernel, ok_of_toOption (by decide +kernel), by decide +kernel,
    ⟨4, 1, #v[#v[⟨.number 1.0, .pending⟩], #v[⟨.number 2.0, .pending⟩],
      #v[⟨.clone .up 2, .pending⟩], #v[⟨.clone .up 2, .pending⟩]], .empty⟩,
    ⟨4, 1, #v[#v[⟨.number 1.0, .pending⟩], #v[⟨.number 2.0, .pending⟩],
      #v[⟨.clone .up 2, .pending⟩], #v[.cloneAbove]], .empty⟩,
    ok_of_toOption ?_, ok_of_toOption ?_, ok_of_toOption ?_, ok_of_toOption ?_, ?_, ?_⟩
  all_goals decide +kernel

end Evaluation

end GridCalc
