import GridCalc.Proofs.Finality

/-!
# Chains that are given up

A chain of references that is too deep is given up as a whole: each cell that is under way waits
for its own turn again, in whatever computation it has been begun, and nothing else is taken back.
What has been worked out by then stays worked out, and a clone that has already become a formula
stays that. So apart from cells that are done now, the only trace of the chain is a clone in the
form of the formula it stands for; and the cell that was too deep is still there to be worked out.
-/

set_option autoImplicit false

namespace GridCalc

namespace Grid

/-- What becomes of the cell at a position between two states of a table: it has its content and is
as far from done as it was, or it has come to be done, or it is a clone that has become the formula
of its source, which is done itself. -/
inductive Fate (g h : Grid) (p : Position) : Prop
  | kept : h.content p = g.content p → (h.phase p = .done ↔ g.phase p = .done) → Fate g h p
  | settled : g.phase p ≠ .done → h.phase p = .done → Fate g h p
  | copied {d : Direction} {offset : Int} {root : NodeId} {shift : Position} {x : Float} :
      g.phase p ≠ .done → g.content p = .clone d offset →
      h.cellAt (p.move d offset) = ⟨.formula root shift x, .done⟩ →
      h.content p = .formula root (shift.move d.reverse offset) 0.0 → h.phase p ≠ .done →
      Fate g h p

variable {g h i : Grid} {p : Position}

theorem cellAt_ext (hc : h.content p = g.content p) (hp : h.phase p = g.phase p) :
    h.cellAt p = g.cellAt p := by
  rw [content, content] at hc
  rw [phase, phase] at hp
  rcases hg : g.cellAt p with ⟨c, f⟩
  rcases hh : h.cellAt p with ⟨c', f'⟩
  rw [hg, hh] at hc hp
  rw [show c' = c from hc, show f' = f from hp]

theorem Fate.of_cellAt (h' : h.cellAt p = g.cellAt p) : Fate g h p :=
  .kept (by rw [content, h', content]) (by rw [phase, h', phase])

theorem Fate.of_done (hf : Fate g h p) (hp : g.phase p = .done) : h.cellAt p = g.cellAt p := by
  cases hf with
  | kept hc hd => exact cellAt_ext hc ((hd.2 hp).trans hp.symm)
  | settled hnot => exact absurd hp hnot
  | copied hnot => exact absurd hp hnot

theorem Fate.trans (hg : Fate g h p) (hh : ∀ q, Fate h i q) : Fate g i p := by
  cases hg with
  | kept hc hd =>
    cases hh p with
    | kept hc' hd' => exact .kept (hc'.trans hc) (hd'.trans hd)
    | settled hnot hdone => exact .settled (fun hp => hnot (hd.2 hp)) hdone
    | copied hnot hclone hsource hformula hwait =>
      exact .copied (fun hp => hnot (hd.2 hp)) (hc ▸ hclone) hsource hformula hwait
  | settled hnot hdone =>
    refine .settled hnot ?_
    rw [phase, (hh p).of_done hdone]
    exact hdone
  | @copied d offset root shift x hnot hclone hsource hformula hwait =>
    have hphase : h.phase (p.move d offset) = .done := by rw [phase, hsource]
    have hsource' := ((hh (p.move d offset)).of_done hphase).trans hsource
    cases hh p with
    | kept hc' hd' =>
      exact .copied hnot hclone hsource' (hc'.trans hformula) fun hp => hwait (hd'.1 hp)
    | settled _ hdone => exact .settled hnot hdone
    | copied _ hclone' =>
      rw [hformula] at hclone'
      cases hclone'

theorem Fate.of_set {c : Cell} (hp : g.phase p ≠ .done) (hself : Fate g (g.set p c) p)
    (q : Position) : Fate g (g.set p c) q := by
  by_cases hq : q = p
  · subst hq
    exact hself
  · exact .of_cellAt (cellAt_set_ne hq)

theorem Change.fate (hc : g.Change h) (q : Position) : Fate g h q := by
  -- where a cell is put that is done, that settles it
  have hdone : ∀ {p : Position} {c : Cell}, g.phase p ≠ .done → c.phase = .done →
      Fate g (g.set p c) q := fun hp hc =>
    .of_set hp (.settled hp (by rw [phase_set_self (contains_of_phase hp), hc])) q
  -- and where only the phase changes, the content is kept
  have hkept : ∀ {p : Position} {f : Phase}, g.phase p ≠ .done → f ≠ .done →
      Fate g (g.set p { g.cellAt p with phase := f }) q := by
    intro p f hp hf
    have hin := contains_of_phase hp
    refine .of_set hp (.kept ?_ ?_) q
    · rw [content_set_self hin, content]
    · rw [phase_set_self hin]
      exact iff_of_false hf hp
  cases hc with
  | literal hp => exact hdone (by simp [hp]) rfl
  | begun hp => exact hkept (by simp [hp]) (by simp)
  | released hp =>
    rw [Grid.released, if_pos hp]
    exact hkept (by simp [hp]) (by simp)
  | looped hp => exact hdone hp rfl
  | valued hp => exact hdone (by simp [hp]) rfl
  | copied hp => exact hdone (by simp [hp]) rfl
  | @moved p shift d offset root x hp hclone hsource hformula =>
    have hnot : g.phase p ≠ .done := by simp [hp]
    have hin := contains_of_phase hnot
    have hne : p.move d offset ≠ p := by
      intro he
      exact hnot (he ▸ hsource)
    have hcell : g.cellAt (p.move d offset) = ⟨.formula root shift x, .done⟩ := by
      rw [content] at hformula
      rw [phase] at hsource
      rw [← hformula, ← hsource]
    refine .of_set hnot (.copied (x := x) hnot hclone ?_ (content_set_self hin) ?_) q
    · rw [cellAt_set_ne hne, hcell]
    · rw [phase_set_self hin]
      simp

theorem Changes.fate (hc : g.Changes h) : ∀ p, Fate g h p := by
  induction hc with
  | refl => exact fun p => .of_cellAt rfl
  | tail _ hstep ih => exact fun p => (ih p).trans hstep.fate

theorem Fate.of_quiet (hf : Fate g h p) (hg : g.phase p ≠ .active) (hh : h.phase p ≠ .active) :
    h.cellAt p = g.cellAt p ∨ (g.phase p ≠ .done ∧ h.phase p = .done) ∨
      ∃ d offset source, g.cellAt p = ⟨.clone d offset, .pending⟩ ∧
        (∃ root shift x, source = ⟨.formula root shift x, .done⟩) ∧
        h.cellAt (p.move d offset) = source ∧ h.cellAt p = source.cloned d offset ∧
        h.phase p = .pending := by
  have hpending : ∀ {f : Phase}, f ≠ .active → f ≠ .done → f = .pending := by
    intro f ha hd
    cases f <;> simp_all
  cases hf with
  | kept hc hd =>
    left
    by_cases hp : g.phase p = .done
    · exact cellAt_ext hc ((hd.2 hp).trans hp.symm)
    · have hp' : h.phase p ≠ .done := fun h => hp (hd.1 h)
      exact cellAt_ext hc ((hpending hh hp').trans (hpending hg hp).symm)
  | settled hnot hdone => exact .inr (.inl ⟨hnot, hdone⟩)
  | @copied d offset root shift x hnot hclone hsource hformula hwait =>
    have hbefore := hpending hg hnot
    have hafter := hpending hh hwait
    refine .inr (.inr ⟨d, offset, _, ?_, ⟨root, shift, x, rfl⟩, hsource, ?_, hafter⟩)
    · rw [← hclone, ← hbefore, content, phase]
    · show h.cellAt p = ⟨.formula root (shift.move d.reverse offset) 0.0, .pending⟩
      rw [← hformula, ← hafter, content, phase]

end Grid

namespace Evaluation
open Grid Inquiry

variable {ctx : Context} {p q : Position} {s t : Progress} {name : String}

/-- What a table can be asked for without taking a chain up again that is too deep. -/
inductive Probe where
  | cell (p : Position)
  | value (root : NodeId) (shift : Position)
  | numbers (r : Region)

def Probe.run (ctx : Context) : Probe → Evaluation Unit
  | cell p => settle ctx p
  | value root shift => do
    let _ ← formulaValue ctx root shift
    pure ()
  | numbers r => do
    let _ ← numbersIn ctx r
    pure ()

structure Unwinds (s : Progress) (e : Stop) (t : Progress) : Prop where
  alike : s.grid.Alike t.grid
  changes : s.grid.Changes t.grid
  depth : t.depth = s.depth
  quiet : ∀ p, t.grid.phase p = .active → s.grid.phase p = .active
  deep : ∀ q name, e = .tooDeep q name →
    t.grid.phase q = .pending ∧ (t.grid.content q).isDeferred

theorem settle_finds_deferred (ctx : Context) :
    Finds (fun q _ g => (g.content q).isDeferred) (settle ctx) := by
  refine settleWithin_finds (P := fun q _ g => (g.content q).isDeferred) ?_ ctx
    (fun _ hc _ => hc) ctx.limit
  intro q name g hc p
  unfold released
  split
  · next hp =>
    by_cases hq : q = p
    · subst hq
      rw [content_set_self (contains_of_phase (by simp [hp]))]
      exact hc
    · rw [content_set_ne hq]
      exact hc
  · exact hc

theorem settle_unwinds (h : settle ctx p s = (.error (.tooDeep q name), t)) :
    Unwinds s (.tooDeep q name) t := by
  have horderly := ((settle_settles ctx).settling h).orderly
  refine ⟨horderly.advance.alike, settle_changes h, ((settle_settles ctx).depth p).depth h,
    horderly.quiet (by simp), ?_⟩
  rintro q name ⟨⟩
  exact ⟨horderly.deep q name rfl, settle_finds_deferred ctx h⟩

theorem unwinds_of_follows {α : Type} {x : Evaluation α} {i : Grid → Inquiry α}
    (hx : ∀ g, Follows (settle ctx) g x (i g)) (h : x s = (.error (.tooDeep q name), t)) :
    Unwinds s (.tooDeep q name) t := by
  obtain ⟨hrun, hdepth⟩ := hx s.grid s _ t (.refl _) h
  have horderly := run_orderly (settle_settles ctx) hrun
  refine ⟨horderly.advance.alike, run_changes settle_changes hrun, hdepth,
    horderly.quiet (by simp), ?_⟩
  rintro q name ⟨⟩
  exact ⟨horderly.deep q name rfl,
    run_finds (P := fun q _ g => (g.content q).isDeferred) (settle_finds_deferred ctx) hrun rfl⟩

theorem error_of_bind_pure {α : Type} {x : Evaluation α} {e : Stop}
    (h : (do let _ ← x; pure () : Evaluation Unit) s = (.error e, t)) : x s = (.error e, t) := by
  obtain hx | ⟨a, u, -, hpure⟩ := Action.error_of_bind h
  · exact hx
  · cases hpure

theorem Probe.unwinds {probe : Probe} (h : probe.run ctx s = (.error (.tooDeep q name), t)) :
    Unwinds s (.tooDeep q name) t := by
  have hasks := (settle_settles ctx).asks
  cases probe with
  | cell p => exact settle_unwinds h
  | value root shift =>
    exact unwinds_of_follows (fun _ => follows_rootValue hasks root) (error_of_bind_pure h)
  | numbers r =>
    exact unwinds_of_follows (fun _ => follows_regionValues hasks r) (error_of_bind_pure h)

/-- On any table on which nothing is under way, a chain that is too deep is given up cleanly.
Nothing is under way afterwards, at the depth there was before; the cell that was too deep is still
there to be worked out; and every other cell is exactly what it was, or has come to be done, or was
a clone that waited and now waits as the copy of its source, which is a formula that is done. -/
theorem probe_unwinds (hquiet : ∀ p, s.grid.phase p ≠ .active) {probe : Probe}
    (h : probe.run ctx s = (.error (.tooDeep q name), t)) :
    t.depth = s.depth ∧ (∀ p, t.grid.phase p ≠ .active) ∧
      (∃ c, t.grid.cell? q = some ⟨c, .pending⟩ ∧ c.isDeferred) ∧
      ∀ p c, s.grid.cell? p = some c →
        t.grid.cell? p = some c ∨
        (c.phase ≠ .done ∧ ∃ content, t.grid.cell? p = some ⟨content, .done⟩) ∨
        ∃ d offset source, c = ⟨.clone d offset, .pending⟩ ∧
          (∃ root shift x, source = ⟨.formula root shift x, .done⟩) ∧
          t.grid.cell? (p.move d offset) = some source ∧
          t.grid.cell? p = some (source.cloned d offset) ∧
          (source.cloned d offset).phase = .pending := by
  obtain ⟨halike, hchanges, hdepth, hkept, hdeep⟩ := probe.unwinds h
  have hrest : ∀ p, t.grid.phase p ≠ .active := fun p hp => hquiet p (hkept p hp)
  obtain ⟨hpending, hdeferred⟩ := hdeep q name rfl
  have hin : t.grid.contains q := contains_of_phase (by simp [hpending])
  refine ⟨hdepth, hrest, ⟨_, ?_, hdeferred⟩, fun p c hc => ?_⟩
  · rw [cell?_of_contains hin, ← hpending, content, phase]
  have hp : t.grid.contains p :=
    halike.contains.2 (contains_iff_isSome.2 (by rw [hc]; rfl))
  obtain rfl := cellAt_eq hc
  rw [cell?_of_contains hp]
  obtain hsame | ⟨hnot, hdone⟩ | ⟨d, offset, source, hclone, hformula, hsource, hcopy, hwait⟩ :=
    (hchanges.fate p).of_quiet (hquiet p) (hrest p)
  · exact .inl (by rw [hsame])
  · refine .inr (.inl ⟨hnot, t.grid.content p, ?_⟩)
    rw [← hdone, content, phase]
  · have hthere : t.grid.contains (p.move d offset) := by
      obtain ⟨root, shift, x, rfl⟩ := hformula
      exact contains_of_content (congrArg Cell.content hsource) rfl
    refine .inr (.inr ⟨d, offset, source, hclone, hformula, ?_, by rw [hcopy], ?_⟩)
    · rw [cell?_of_contains hthere, hsource]
    · rw [← hcopy]
      exact hwait

def cloneBesideFormula : Grid :=
  ⟨2, 2, #v[#v[⟨.formula 0 .origin 0.0, .pending⟩, ⟨.number 5.0, .pending⟩],
    #v[⟨.clone .up 1, .pending⟩, ⟨.formula 1 .origin 0.0, .pending⟩]],
    ⟨#[.relative ⟨0, 1⟩, .relative ⟨0, 0⟩]⟩⟩

def unwoundClone : Progress :=
  ((Probe.cell ⟨1, 0⟩).run ⟨2, .builtin⟩ { grid := cloneBesideFormula }).2

theorem probe_unwinds_clone :
    Grid.ofText "=>|5\n:^|=A1" = .ok (cloneBesideFormula, #[]) ∧
      (∀ p, cloneBesideFormula.phase p ≠ .active) ∧
      (Probe.cell ⟨1, 0⟩).run ⟨2, .builtin⟩ { grid := cloneBesideFormula } =
        (.error (.tooDeep ⟨1, 1⟩ "B2"), unwoundClone) ∧
      unwoundClone.depth = 0 ∧ (∀ p, unwoundClone.grid.phase p ≠ .active) ∧
      (∃ c, unwoundClone.grid.cell? ⟨1, 1⟩ = some ⟨c, .pending⟩ ∧ c.isDeferred) ∧
      unwoundClone.grid.cell? ⟨0, 0⟩ = some ⟨.formula 0 .origin 5.0, .done⟩ ∧
      unwoundClone.grid.cell? ⟨1, 0⟩ = some ⟨.formula 0 ⟨1, 0⟩ 0.0, .pending⟩ := by
  have hread : Grid.ofText "=>|5\n:^|=A1" = .ok (cloneBesideFormula, #[]) :=
    ok_of_toOption (by decide +kernel)
  have hresting : Resting cloneBesideFormula .builtin { grid := cloneBesideFormula } :=
    resting_of_fresh (fresh_ofText hread) #[]
  have hquiet : ∀ p, cloneBesideFormula.phase p ≠ .active := hresting.quiet
  have hstop : ((Probe.cell ⟨1, 0⟩).run ⟨2, .builtin⟩ { grid := cloneBesideFormula }).1 =
      .error (.tooDeep ⟨1, 1⟩ "B2") := by decide +kernel
  have hrun : (Probe.cell ⟨1, 0⟩).run ⟨2, .builtin⟩ { grid := cloneBesideFormula } =
      (.error (.tooDeep ⟨1, 1⟩ "B2"), unwoundClone) := Prod.ext hstop rfl
  obtain ⟨hdepth, hrest, hdeep, -⟩ :=
    probe_unwinds (s := { grid := cloneBesideFormula }) hquiet hrun
  exact ⟨hread, hquiet, hrun, hdepth, hrest, hdeep, by decide +kernel, by decide +kernel⟩

end Evaluation

end GridCalc
