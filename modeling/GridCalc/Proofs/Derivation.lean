import GridCalc.Proofs.Evidence
import GridCalc.Proofs.Faithful

/-!
# How a faithful table has come about

All that is done in a faithful table is sound, so that its cells have looked at nothing but their
dependences. A cell from which no loop of dependences can be reached has been answered, and so
have all that it looked at, down to cells that look at nothing: its content is the one that the
table means there. A cell that is no fault has a higher rank than its strict dependences, which
are no faults either, and so lies on no loop of them.
-/

set_option autoImplicit false

namespace GridCalc

theorem Knowledge.Sound.of_within {start : Grid} {k l : Knowledge} (hk : k.Within l)
    (hl : l.Sound start) : k.Sound start := fun p c hc => hl p c (hk p c hc)

namespace Grid
open Inquiry Relation

variable {start g : Grid} {functions : Functions} {p q : Position}

theorem soundAt_error (p : Position) (f : Fault) : (Content.error f).SoundAt start p :=
  ⟨fun _ _ _ he => by simp at he, fun _ _ _ hne => absurd rfl (hne f)⟩

theorem Faithful.sound (hg : Faithful start functions g) : g.known.Sound start := by
  -- What is done has looked at cells of a lower rank only.
  obtain ⟨rank, bound, hs⟩ := hg.settled
  have hsound : ∀ n p, rank p = n → g.phase p = .done → (g.content p).SoundAt start p := by
    intro n
    induction n using Nat.strongRecOn with
    | _ n ih =>
      intro p hn hp
      obtain ⟨_, hsettled⟩ := hs p hp
      cases hsettled with
      | answered hl =>
        refine soundAt_of_answered (fun q c hq => ?_) (answered_of_leads hl)
        obtain ⟨hd, hr, rfl⟩ := knownBefore_eq_some.1 hq
        exact ih (rank q) (hn ▸ hr) q rfl hd
      | looped he =>
        rw [he]
        exact soundAt_error p .loop
  intro p c hc
  obtain ⟨hp, rfl⟩ := known_eq_some.1 hc
  exact hsound (rank p) p rfl hp

theorem Faithful.sound_before (hg : Faithful start functions g) (rank : Position → Nat) (n : Nat) :
    (g.knownBefore rank n).Sound start :=
  .of_within knownBefore_within hg.sound

theorem contains_of_content {c : Content} (hc : start.content p = c) (hdef : c.isDeferred) :
    start.contains p := by
  by_cases hp : start.contains p
  · exact hp
  · rw [content, cellAt_of_not_contains hp] at hc
    subst hc
    cases hdef

theorem FormulaAt.contains {root : NodeId} {shift : Position} (h : start.FormulaAt p root shift) :
    start.contains p := by
  cases h with
  | own hc => exact contains_of_content hc rfl
  | clone hc => exact contains_of_content hc rfl

theorem contains_of_depends (h : start.Depends p q) : start.contains p := by
  obtain (⟨hc, _⟩ | ⟨hp, _, _⟩) | ⟨hp, _, _⟩ := h
  · exact contains_of_content hc rfl
  · exact hp.contains
  · exact hp.contains

theorem isDeferred_of_reads (h : Reads start functions g p q) : (start.content p).isDeferred := by
  obtain ⟨next, hl⟩ := h
  cases looking_of_leads hl with
  | formula hc => rw [hc]; rfl
  | source hc => rw [hc]; rfl
  | moved hc => rw [hc]; rfl

theorem contains_of_reads (h : Reads start functions g p q) : start.contains p :=
  contains_of_content rfl (isDeferred_of_reads h)

theorem depends_of_leads {k : Knowledge} {next : Content → Inquiry Content} (hk : k.Sound start)
    (h : Leads k (start.inquiry functions p) (.look q next)) (hq : start.contains q) :
    start.Depends p q :=
  (depends_of_looking hk (looking_of_leads h) hq).imp And.left id

theorem Faithful.reads_depends (hg : Faithful start functions g)
    (h : Reads start functions g p q) (hq : start.contains q) : start.Depends p q := by
  obtain ⟨next, hl⟩ := h
  exact depends_of_leads hg.sound hl hq

theorem Faithful.reads_trans_depends (hg : Faithful start functions g)
    (h : TransGen (Reads start functions g) p q) (hq : start.contains q) :
    TransGen start.Depends p q := by
  induction h with
  | single h => exact .single (hg.reads_depends h hq)
  | tail _ h ih => exact .tail (ih (contains_of_reads h)) (hg.reads_depends h hq)

theorem Faithful.reads_reflTrans_depends (hg : Faithful start functions g)
    (h : ReflTransGen (Reads start functions g) p q) (hq : start.contains q) :
    ReflTransGen start.Depends p q := by
  obtain rfl | h := reflTransGen_iff_eq_or_transGen.1 h
  · exact .refl
  · exact (hg.reads_trans_depends h hq).to_reflTransGen

theorem Faithful.content_of_literal (hg : Faithful start functions g) (hp : g.phase p = .done)
    (hlit : ¬ (start.content p).isDeferred) : g.content p = start.content p := by
  obtain ⟨rank, bound, hs⟩ := hg.settled
  cases (hs p hp).2 with
  | answered hl =>
    have hanswered := answered_of_leads hl
    generalize hcontent : g.content p = c at hanswered
    cases hanswered with
    | literal => rfl
    | formula hc => exact absurd (hc ▸ rfl) hlit
    | copied hc => exact absurd (hc ▸ rfl) hlit
    | moved hc => exact absurd (hc ▸ rfl) hlit
  | looped _ hloop =>
    obtain ⟨q, hq, _⟩ := TransGen.head'_iff.1 hloop
    exact absurd (isDeferred_of_reads hq) hlit

theorem Faithful.meetsLoop (hg : Faithful start functions g)
    (h : TransGen (Reads start functions g) p p) : start.MeetsLoop p := by
  obtain ⟨q, hq, _⟩ := TransGen.head'_iff.1 h
  exact ⟨p, .refl, hg.reads_trans_depends h (contains_of_reads hq)⟩

theorem MeetsLoop.of_reflTrans (hq : ReflTransGen start.Depends p q) (h : start.MeetsLoop q) :
    start.MeetsLoop p := by
  obtain ⟨r, hr, hloop⟩ := h
  exact ⟨r, hq.trans hr, hloop⟩

theorem contains_of_meetsLoop (h : start.MeetsLoop p) : start.contains p := by
  obtain ⟨q, hq, hloop⟩ := h
  obtain ⟨r, hr, _⟩ := TransGen.head'_iff.1 (TransGen.trans_right hq hloop)
  exact contains_of_depends hr

/-- What is done and can reach no loop is what the table means, by induction on the rank. -/
theorem Faithful.means (hg : Faithful start functions g) (hp : g.phase p = .done)
    (hloop : ¬ start.MeetsLoop p) : start.Means functions p (g.content p) := by
  obtain ⟨rank, bound, hs⟩ := hg.settled
  induction hn : rank p using Nat.strongRecOn generalizing p with
  | _ n ih =>
    obtain ⟨_, hsettled⟩ := hs p hp
    cases hsettled with
    | answered hl =>
      refine answers_of_leads (fun q c hq => ?_) hl.on
      obtain ⟨⟨next, hlook⟩, hk⟩ := Knowledge.on_eq_some.1 hq
      obtain ⟨hd, hr, rfl⟩ := knownBefore_eq_some.1 hk
      refine ih (rank q) (hn ▸ hr) hd (fun hmeets => ?_) rfl
      have hdepends :=
        depends_of_leads (hg.sound_before rank _) hlook (contains_of_meetsLoop hmeets)
      exact hloop (.of_reflTrans (.single hdepends) hmeets)
    | looped _ hr => exact absurd (hg.meetsLoop hr) hloop

/-- No loop of strict dependences leads through a cell that is no fault: along them the rank
falls. -/
theorem Faithful.error_of_strictLoop (hg : Faithful start functions g)
    (hdone : ∀ p, g.phase p = .done) (hp : TransGen start.StrictlyDepends p p) :
    ∃ f, g.content p = .error f := by
  obtain ⟨rank, bound, hs⟩ := hg.settled
  have hstep : ∀ {p q}, start.StrictlyDepends p q → (∀ f, g.content p ≠ .error f) →
      rank q < rank p ∧ ∀ f, g.content q ≠ .error f := by
    intro p q hq hne
    obtain ⟨_, hsettled⟩ := hs p (hdone p)
    cases hsettled with
    | answered hl =>
      obtain ⟨d, hd, hned⟩ :=
        seen_of_answered (hg.sound_before rank _) (answered_of_leads hl) hne hq
      obtain ⟨_, hr, rfl⟩ := knownBefore_eq_some.1 hd
      exact ⟨hr, hned⟩
    | looped he => exact absurd he (hne .loop)
  apply Classical.byContradiction
  intro hnot
  have hne : ∀ f, g.content p ≠ .error f := fun f hf => hnot ⟨f, hf⟩
  have hfall : ∀ q, TransGen start.StrictlyDepends p q →
      rank q < rank p ∧ ∀ f, g.content q ≠ .error f := by
    intro q hq
    induction hq with
    | single h => exact hstep h hne
    | tail _ h ih =>
      obtain ⟨hr, hneq⟩ := ih
      obtain ⟨hr', hneq'⟩ := hstep h hneq
      exact ⟨Nat.lt_trans hr' hr, hneq'⟩
  have hself := (hfall p hp).1
  omega

end Grid

end GridCalc
