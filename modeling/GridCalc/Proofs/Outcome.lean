import GridCalc.Proofs.Derivation
import GridCalc.Proofs.Resting

/-!
# What evaluations come to

The results of evaluating a table that has been read. Requested cells that can reach no loop have
the contents that the table means; an evaluated table solves its own equations wherever it is not
the fault of a loop; and no cell on a loop of strict dependences has a value. None of this depends
on the limit or on the order in which cells are asked for.
-/

set_option autoImplicit false

namespace GridCalc.Evaluation
open Grid Inquiry Relation

variable {text : String} {g : Grid} {log : Array Event} {ctx : Context} {ps : List Position}
  {s t : Progress} {p : Position}

theorem resting_of_read (hread : Grid.ofText text = .ok (g, log)) :
    Resting g ctx.functions { grid := g } := resting_of_fresh (fresh_ofText hread) #[]

theorem cell?_of_done {h : Grid} (ha : g.Alike h) (hin : g.contains p) (hp : h.phase p = .done) :
    h.cell? p = some ⟨h.content p, .done⟩ := by
  rw [cell?_of_contains (ha.contains.2 hin), content, ← hp, phase]

theorem cell?_eq_iff {h : Grid} (ha : g.Alike h) (hg : ∀ p, g.phase p = .done)
    (hh : ∀ p, h.phase p = .done) : g.cell? p = h.cell? p ↔ g.content p = h.content p := by
  constructor
  · intro hcell
    simp only [content, Grid.cellAt, hcell]
  · intro hcontent
    by_cases hin : g.contains p
    · rw [cell?_of_done (.refl g) hin (hg p), cell?_of_done ha hin (hh p), hcontent]
    · rw [cell?, if_neg hin, cell?, if_neg fun h => hin (ha.contains.1 h)]

/-- Whatever cells are asked for, in whatever order and under whatever limit: a requested cell that
can reach no loop is done and has the one content that the table means there. -/
theorem ensureAll_means (hread : Grid.ofText text = .ok (g, log)) (hlimit : 1 ≤ ctx.limit)
    (hrun : ensureAll ctx ps { grid := g } = (.ok (), t)) (hp : p ∈ ps) (hin : g.contains p)
    (hloop : ¬ g.MeetsLoop p) :
    ∃ c, (∀ d, g.Means ctx.functions p d ↔ d = c) ∧ t.grid.cell? p = some ⟨c, .done⟩ := by
  have hfaithful := (ensureAll_resting hlimit (resting_of_read hread) hrun).faithful
  have hdone := (ensureAll_done hrun).2 p hp
  have hmeans := hfaithful.means hdone hloop
  refine ⟨t.grid.content p, fun d => ⟨fun hd => means_unique hd hmeans, ?_⟩, ?_⟩
  · rintro rfl
    exact hmeans
  · exact cell?_of_done hfaithful.alike hin hdone

def numberAndClone : Grid :=
  ⟨1, 2, #v[#v[⟨.number 5.0, .pending⟩, ⟨.clone .left 1, .pending⟩]], .empty⟩

theorem numberAndClone_depends {q : Position} (h : numberAndClone.Depends p q) :
    p = ⟨0, 1⟩ ∧ q = ⟨0, 0⟩ := by
  have hcell : ∀ {p}, numberAndClone.contains p → p = ⟨0, 0⟩ ∨ p = ⟨0, 1⟩ := by
    rintro ⟨row, column⟩ ⟨⟨hr, hr'⟩, hc, hc'⟩
    simp only [numberAndClone, Position.mk.injEq] at *
    omega
  have hfirst : numberAndClone.content ⟨0, 0⟩ = .number 5.0 := by decide +kernel
  have hsecond : numberAndClone.content ⟨0, 1⟩ = .clone .left 1 := by decide +kernel
  have hformula : ∀ {p root shift}, ¬ numberAndClone.FormulaAt p root shift := by
    intro p root shift hp
    induction hp with
    | own hc =>
      obtain rfl | rfl := hcell (contains_of_content hc rfl)
      · rw [hfirst] at hc
        cases hc
      · rw [hsecond] at hc
        cases hc
    | clone _ _ ih => exact ih
  obtain (⟨hc, _⟩ | ⟨hp, _, _⟩) | ⟨hp, _, _⟩ := h
  · obtain rfl | rfl := hcell (contains_of_content hc rfl)
    · rw [hfirst] at hc
      cases hc
    · rw [hsecond] at hc
      cases hc
      exact ⟨rfl, by decide⟩
  · exact absurd hp hformula
  · exact absurd hp hformula

theorem numberAndClone_not_meetsLoop (p : Position) : ¬ numberAndClone.MeetsLoop p := by
  rintro ⟨q, _, hloop⟩
  obtain ⟨r, hr, hback⟩ := TransGen.head'_iff.1 hloop
  obtain ⟨rfl, rfl⟩ := numberAndClone_depends hr
  obtain he | hback := reflTransGen_iff_eq_or_transGen.1 hback
  · cases he
  · obtain ⟨r, hr, _⟩ := TransGen.head'_iff.1 hback
    cases (numberAndClone_depends hr).1

theorem ensureAll_means_clone :
    Grid.ofText "5|:<" = .ok (numberAndClone, #[]) ∧
      ∃ c, (∀ d, numberAndClone.Means .builtin ⟨0, 1⟩ d ↔ d = c) ∧
        (ensureAll ⟨1, .builtin⟩ [⟨0, 1⟩] { grid := numberAndClone }).2.grid.cell? ⟨0, 1⟩ =
          some ⟨c, .done⟩ := by
  have hread : Grid.ofText "5|:<" = .ok (numberAndClone, #[]) :=
    ok_of_toOption (by decide +kernel)
  have hrun : (ensureAll ⟨1, .builtin⟩ [⟨0, 1⟩] { grid := numberAndClone }).1.toOption =
      some () := by decide +kernel
  exact ⟨hread, ensureAll_means hread (by decide) (Action.eq_ok hrun) (by simp) (by decide)
    (numberAndClone_not_meetsLoop _)⟩

theorem run_of_done {α : Type} {q : Inquiry α} {h : Grid} {r : Except Stop α}
    (hdone : ∀ p, g.phase p = .done) (hq : q.Run (settle ctx) g r h) :
    h = g ∧ Leads g.known q (.done r) := by
  induction hq with
  | done => exact ⟨rfl, .refl _⟩
  | stopped hs hp =>
    subst hs
    rw [settle_done (hdone _)] at hp
    cases hp
  | looked hs hp _ _ ih =>
    subst hs
    rw [settle_done (hdone _)] at hp
    cases hp
    obtain ⟨rfl, hl⟩ := ih hdone
    exact ⟨rfl, .look (known_of_done (hdone _)) hl⟩

/-- The formula comes to the content on the table as it is, under every limit, and changes
nothing. -/
def Yields (functions : Functions) (g : Grid) (root : NodeId) (shift : Position)
    (c : Content) : Prop :=
  ∀ (limit : Nat) (s : Progress), s.grid = g →
    ∃ v t, formulaValue ⟨limit, functions⟩ root shift s = (v, t) ∧ t.grid = g ∧
      ((∃ x, v = .ok x ∧ c = .formula root shift x) ∨
        ∃ f, v = .error (.fault f) ∧ c = .error f)

/-- The equation of the cell at `p`, for the contents that another table has. -/
def Solves (functions : Functions) (start g : Grid) (p : Position) : Prop :=
  match start.content p with
  | .formula root shift _ => Yields functions g root shift (g.content p)
  | .clone d offset =>
    let source := p.move d offset
    (¬ start.contains source → g.content p = .error .outsideTable) ∧
      (∀ root shift x, g.content source = .formula root shift x →
        Yields functions g root (shift.shift (p.wayFrom source)) (g.content p)) ∧
      ((∀ root shift x, g.content source ≠ .formula root shift x) →
        g.content p = g.content source)
  | c => g.content p = c

section

variable {start : Grid} {functions : Functions} {root : NodeId} {shift : Position} {c : Content}

theorem yields_of_leads {v : Except Stop Float} (ha : start.Alike g)
    (hdone : ∀ p, g.phase p = .done)
    (hl : Leads g.known (Inquiry.formulaValue start functions shift root) (.done v))
    (hc : settledFormula root shift v = .ok c) : Yields functions g root shift c := by
  rintro limit s rfl
  rcases hv : formulaValue ⟨limit, functions⟩ root shift s with ⟨v', t⟩
  have hasks := (settle_settles ⟨limit, functions⟩).asks
  obtain ⟨hrun, _⟩ := follows_rootValue hasks root s v' t ha hv
  obtain ⟨hsame, hl'⟩ := run_of_done hdone hrun
  obtain rfl := leads_done_unique hl hl'
  exact ⟨v, t, rfl, hsame, settledFormula_ok hc⟩

theorem leads_of_yields (ha : start.Alike g) (hdone : ∀ p, g.phase p = .done)
    (h : Yields functions g root shift c) :
    Leads g.known (Inquiry.formulaContent start functions shift root) (.done (.ok c)) := by
  obtain ⟨v, t, hv, -, hcase⟩ := h 0 { grid := g } rfl
  have hasks := (settle_settles ⟨0, functions⟩).asks
  obtain ⟨hrun, _⟩ := follows_rootValue hasks root { grid := g } v t ha hv
  have hl := (run_of_done hdone hrun).2.mapEnd (settledFormula root shift)
  obtain ⟨x, rfl, rfl⟩ | ⟨f, rfl, rfl⟩ := hcase
  · exact hl
  · exact hl

theorem solves_of_leads (ha : start.Alike g) (hdone : ∀ p, g.phase p = .done)
    (hl : Leads g.known (start.inquiry functions p) (.done (.ok (g.content p)))) :
    Solves functions start g p := by
  unfold Solves
  have hanswered := answered_of_leads hl
  generalize hcontent : g.content p = c at hanswered
  cases hanswered with
  | literal hlit =>
    generalize start.content p = c at hlit
    cases c with
    | formula => exact absurd rfl hlit
    | clone => exact absurd rfl hlit
    | _ => rfl
  | formula hc hl hv =>
    rw [hc]
    exact yields_of_leads ha hdone hl hv
  | @copied d offset c hc hk hne =>
    obtain ⟨_, rfl⟩ := known_eq_some.1 hk
    rw [hc]
    refine ⟨fun hout => ?_, fun root shift x he => absurd he (hne root shift x), fun _ => rfl⟩
    rw [content, ha.cellAt_outside hout]
    rfl
  | @moved d offset root shift x v c hc hk hl hv =>
    obtain ⟨_, hsource⟩ := known_eq_some.1 hk
    rw [hc]
    refine ⟨fun hout => ?_, fun root' shift' x' he => ?_, fun hne => ?_⟩
    · rw [content, ha.cellAt_outside hout] at hsource
      cases hsource
    · rw [hsource] at he
      cases he
      rw [← Position.move_reverse_eq_shift]
      exact yields_of_leads ha hdone hl hv
    · exact absurd hsource (hne root shift x)

theorem leads_of_solves (ha : start.Alike g) (hdone : ∀ p, g.phase p = .done)
    (h : Solves functions start g p) :
    Leads g.known (start.inquiry functions p) (.done (.ok (g.content p))) := by
  unfold Solves at h
  unfold inquiry
  cases hc : start.content p with
  | formula root shift x =>
    rw [hc] at h
    exact leads_of_yields ha hdone h
  | clone d offset =>
    rw [hc] at h
    obtain ⟨-, hmoved, hcopied⟩ := h
    refine .look (known_of_done (hdone (p.move d offset))) ?_
    cases hsource : g.content (p.move d offset) with
    | formula root shift x =>
      have hyields := hmoved root shift x hsource
      rw [← Position.move_reverse_eq_shift] at hyields
      exact leads_of_yields ha hdone hyields
    | _ =>
      rw [hcopied (by simp [hsource]), hsource]
      exact .refl _
  | _ =>
    rw [hc] at h
    rw [h]
    exact .refl _

theorem solves_of_faithful (hg : Faithful start functions g) (hdone : ∀ p, g.phase p = .done)
    (hnot : g.content p ≠ .error .loop) : Solves functions start g p := by
  obtain ⟨_, hl⟩ := hg.leads_of_not_looped (hdone p) fun hloop => hnot hloop.1
  exact solves_of_leads hg.alike hdone (hl.mono knownBefore_within)

end

/-- An evaluated table solves its equations at every cell that does not show a loop. -/
theorem evaluate_solves (hread : Grid.ofText text = .ok (g, log)) (hlimit : 1 ≤ ctx.limit)
    (hrun : evaluate ctx { grid := g } = (.ok (), t))
    (hnot : ∀ f, t.grid.content p = .error f → f.category ≠ .cycle) :
    Solves ctx.functions g t.grid p := by
  have hfaithful := (evaluate_resting hlimit (resting_of_read hread) hrun).faithful
  exact solves_of_faithful hfaithful (evaluate_done hrun).2 fun he => hnot .loop he rfl

theorem evaluate_solves_clone :
    Grid.ofText "5|:<" = .ok (numberAndClone, #[]) ∧
      Solves .builtin numberAndClone
        (evaluate ⟨1, .builtin⟩ { grid := numberAndClone }).2.grid ⟨0, 1⟩ := by
  have hread : Grid.ofText "5|:<" = .ok (numberAndClone, #[]) :=
    ok_of_toOption (by decide +kernel)
  have hrun : (evaluate ⟨1, .builtin⟩ { grid := numberAndClone }).1.toOption = some () := by
    decide +kernel
  have hvalue : (evaluate ⟨1, .builtin⟩ { grid := numberAndClone }).2.grid.content ⟨0, 1⟩ =
      .number 5.0 := by decide +kernel
  refine ⟨hread, evaluate_solves hread (by decide) (Action.eq_ok hrun) fun f hf => ?_⟩
  rw [hvalue] at hf
  cases hf

/-- Whatever cells have been asked for before, a cell on a loop of strict dependences ends as a
fault. -/
theorem evaluate_strictLoop (hread : Grid.ofText text = .ok (g, log)) (hlimit : 1 ≤ ctx.limit)
    (hbefore : ensureAll ctx ps { grid := g } = (.ok (), s))
    (hrun : evaluate ctx s = (.ok (), t)) (hp : TransGen g.StrictlyDepends p p) :
    ∃ f, t.grid.cell? p = some ⟨.error f, .done⟩ := by
  have hresting := ensureAll_resting hlimit (resting_of_read hread) hbefore
  have hfaithful := (evaluate_resting hlimit hresting hrun).faithful
  have hdone := (evaluate_done hrun).2
  obtain ⟨q, hq, _⟩ := TransGen.head'_iff.1 hp
  obtain ⟨f, hf⟩ := hfaithful.error_of_strictLoop hdone hp
  have hin : g.contains p := contains_of_depends (.inl hq)
  exact ⟨f, hf ▸ cell?_of_done hfaithful.alike hin (hdone p)⟩

def twoInALoop : Grid :=
  ⟨1, 2, #v[#v[⟨.formula 0 .origin 0.0, .pending⟩, ⟨.formula 1 .origin 0.0, .pending⟩]],
    ⟨#[.relative ⟨0, 1⟩, .relative ⟨0, 0⟩]⟩⟩

theorem evaluate_strictLoop_two :
    Grid.ofText "=B1|=A1" = .ok (twoInALoop, #[]) ∧
      ∃ f, (evaluate ⟨1, .builtin⟩
        (ensureAll ⟨1, .builtin⟩ [⟨0, 1⟩] { grid := twoInALoop }).2).2.grid.cell? ⟨0, 0⟩ =
          some ⟨.error f, .done⟩ := by
  have hread : Grid.ofText "=B1|=A1" = .ok (twoInALoop, #[]) := ok_of_toOption (by decide +kernel)
  have hbefore : (ensureAll ⟨1, .builtin⟩ [⟨0, 1⟩] { grid := twoInALoop }).1.toOption =
      some () := by decide +kernel
  have hrun : (evaluate ⟨1, .builtin⟩
      (ensureAll ⟨1, .builtin⟩ [⟨0, 1⟩] { grid := twoInALoop }).2).1.toOption = some () := by
    decide +kernel
  have hfirst : twoInALoop.content ⟨0, 0⟩ = .formula 0 .origin 0.0 := by decide +kernel
  have hsecond : twoInALoop.content ⟨0, 1⟩ = .formula 1 .origin 0.0 := by decide +kernel
  have hto : twoInALoop.StrictlyDepends ⟨0, 0⟩ ⟨0, 1⟩ :=
    .reference (.own hfirst) (.relative (p := ⟨0, 1⟩) (.root 0) rfl) (by decide)
  have hback : twoInALoop.StrictlyDepends ⟨0, 1⟩ ⟨0, 0⟩ :=
    .reference (.own hsecond) (.relative (p := ⟨0, 0⟩) (.root 1) rfl) (by decide)
  exact ⟨hread, evaluate_strictLoop hread (by decide) (Action.eq_ok hbefore) (Action.eq_ok hrun)
    (.head hto (.single hback))⟩

end GridCalc.Evaluation
