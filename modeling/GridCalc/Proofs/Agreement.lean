import GridCalc.Proofs.Outcome

/-!
# Agreement of evaluations

Two evaluations of one table under different limits come to the same contents as far as no loop
leads through a region. A strict look at the fault of a loop ends with that fault, so a cell that
is no such fault has seen none at its strict dependences; what it has seen through regions lies
behind them, where both tables agree already. Where they are not the fault of a loop, the contents
of one table are those of the other; and the cells that hold that fault decide about all others.
-/

set_option autoImplicit false

namespace GridCalc

namespace Grid
open Inquiry Relation

variable {start g h : Grid} {functions : Functions} {p q : Position}

def LooselyReaches (start : Grid) (p z : Position) : Prop :=
  ∃ q r, ReflTransGen start.Depends p q ∧ start.LooselyDepends q r ∧
    ReflTransGen start.Depends r z

open Classical in
noncomputable def behind (start : Grid) (p : Position) : Nat :=
  start.positions.countP fun z => start.LooselyReaches p z

theorem LooselyReaches.of_reflTrans {z : Position} (hq : ReflTransGen start.Depends p q)
    (h : start.LooselyReaches q z) : start.LooselyReaches p z := by
  obtain ⟨a, b, ha, hab, hb⟩ := h
  exact ⟨a, b, hq.trans ha, hab, hb⟩

theorem MeetsLooseLoop.of_reflTrans (hq : ReflTransGen start.Depends p q)
    (h : start.MeetsLooseLoop q) : start.MeetsLooseLoop p := by
  obtain ⟨a, b, ha, hab, hb⟩ := h
  exact ⟨a, b, hq.trans ha, hab, hb⟩

theorem LooselyReaches.reflTrans {z : Position} (h : start.LooselyReaches p z) :
    ReflTransGen start.Depends p z := by
  obtain ⟨a, b, ha, hab, hb⟩ := h
  exact (ha.tail (.inr hab)).trans hb

theorem contains_of_depends_right (h : start.Depends p q) : start.contains q := by
  obtain (⟨_, hq⟩ | ⟨_, _, hq⟩) | ⟨_, _, hq⟩ := h
  · exact hq
  · exact hq
  · exact hq

theorem LooselyReaches.contains {z : Position} (h : start.LooselyReaches p z) :
    start.contains z := by
  obtain ⟨a, b, ha, hab, hb⟩ := h
  obtain ⟨c, _, hc⟩ := TransGen.tail'_iff.1 (TransGen.head' (.inr hab) hb)
  exact contains_of_depends_right hc

theorem behind_lt {z : Position} (hp : ¬ start.MeetsLooseLoop p) (hz : start.LooselyReaches p z) :
    start.behind z < start.behind p := by
  unfold behind
  refine countP_lt (fun y _ hy => ?_) (mem_positions.2 hz.contains) (by simpa using hz) ?_
  · simp only [decide_eq_true_eq] at hy ⊢
    obtain ⟨a, b, ha, hab, hb⟩ := hz
    exact ⟨a, b, ha, hab, hb.trans hy.reflTrans⟩
  · simp only [decide_eq_true_eq]
    rintro ⟨a, b, ha, hab, hb⟩
    exact hp (.of_reflTrans hz.reflTrans ⟨a, b, ha, hab, hb.trans ha⟩)

theorem Faithful.seen_of_ne_loop (hh : Faithful start functions h) {rank : Position → Nat}
    {n : Nat} {c d : Content} {z : Position} {next : Content → Inquiry Content}
    (hl : Leads (h.knownBefore rank n) (start.inquiry functions p) (.done (.ok c)))
    (hc : c ≠ .error .loop) (hz : h.knownBefore rank n z = some d)
    (hlook : Leads (h.knownBefore rank n) (start.inquiry functions p) (.look z next))
    (hin : start.contains z) :
    start.StrictlyDepends p z ∧ d ≠ .error .loop ∨ start.LooselyDepends p z := by
  obtain ⟨hstrict, hnext⟩ | hloose :=
    depends_of_looking (hh.sound_before rank n) (looking_of_leads hlook) hin
  · refine .inl ⟨hstrict, fun hd => hc ?_⟩
    obtain ⟨d', hd', hrest⟩ := leads_look (hlook.cut hl)
    rw [hz] at hd'
    cases hd'
    rw [hd, hnext .loop] at hrest
    cases leads_done hrest
    rfl
  · exact .inr hloose

/-- The cell has in the first table the content of the second, and whatever it reads on a way back
to itself has a lower rank in the second and is no loop there. -/
structure AgreesAt (start : Grid) (functions : Functions) (g h : Grid) (rank : Position → Nat)
    (p : Position) : Prop where
  content : g.content p = h.content p
  falls : ∀ z, Reads start functions g p z → ReflTransGen start.Depends z p →
    rank z < rank p ∧ h.content z ≠ .error .loop

theorem Faithful.rank_lt_of_reads (hg : Faithful start functions g) {rank : Position → Nat}
    {w : Position} (hfirst : ∀ z, Reads start functions g p z → ReflTransGen start.Depends z p →
      rank z < rank p ∧ h.content z ≠ .error .loop)
    (hlater : ∀ q, rank q < rank p → ReflTransGen start.Depends p q →
      h.content q ≠ .error .loop → AgreesAt start functions g h rank q)
    (hw : TransGen (Reads start functions g) p w)
    (hback : ReflTransGen (Reads start functions g) w p) :
    rank w < rank p ∧ h.content w ≠ .error .loop := by
  have hin : start.contains p := by
    obtain ⟨_, hread, _⟩ := TransGen.head'_iff.1 hw
    exact contains_of_reads hread
  induction hw with
  | single hread => exact hfirst _ hread (hg.reads_reflTrans_depends hback hin)
  | @tail v w hv hread ih =>
    obtain ⟨hr, hne⟩ := ih (.head hread hback)
    have hto := (hg.reads_trans_depends hv (contains_of_reads hread)).to_reflTransGen
    have hback' := (hg.reads_reflTrans_depends hback hin).trans hto
    obtain ⟨hr', hne'⟩ := (hlater v hr hto hne).falls w hread hback'
    exact ⟨Nat.lt_trans hr' hr, hne'⟩

theorem Faithful.agreesAt_of_ne_loop (hg : Faithful start functions g)
    (hh : Faithful start functions h) (hgdone : ∀ p, g.phase p = .done)
    {rank : Position → Nat}
    (hs : ∀ p, Settled start functions h rank p) (hp : ¬ start.MeetsLooseLoop p)
    (hbehind : ∀ z, start.LooselyReaches p z → g.content z = h.content z)
    (hne : h.content p ≠ .error .loop) : AgreesAt start functions g h rank p := by
  -- All that the cell has seen in the second table has been agreed on, so its inquiry ends alike
  -- in the first; and were it the fault of a loop there, the rank would fall all the way round the
  -- loop.
  induction hn : rank p using Nat.strongRecOn generalizing p with
  | _ n ih =>
    have hlater : ∀ q, rank q < rank p → ReflTransGen start.Depends p q →
        h.content q ≠ .error .loop → AgreesAt start functions g h rank q := by
      intro q hr hto hneq
      exact ih (rank q) (hn ▸ hr) (fun hm => hp (.of_reflTrans hto hm))
        (fun y hy => hbehind y (.of_reflTrans hto hy)) hneq rfl
    cases hs p with
    | looped he => exact absurd he hne
    | answered hl =>
      have hwithin : (Knowledge.on (h.knownBefore rank (rank p)) fun z => ∃ next,
          Leads (h.knownBefore rank (rank p)) (start.inquiry functions p)
            (.look z next)).Within g.known := by
        intro z d hz
        obtain ⟨⟨next, hlook⟩, hk⟩ := Knowledge.on_eq_some.1 hz
        obtain ⟨_, hr, rfl⟩ := knownBefore_eq_some.1 hk
        refine known_eq_some.2 ⟨hgdone z, ?_⟩
        by_cases hin : start.contains z
        · obtain ⟨hstrict, hnez⟩ | hloose := hh.seen_of_ne_loop hl hne hk hlook hin
          · exact (hlater z hr (.single (.inl hstrict)) hnez).content
          · exact hbehind z ⟨p, z, .refl, hloose, .refl⟩
        · rw [content, hg.alike.cellAt_outside hin, content, hh.alike.cellAt_outside hin]
      have hfirst : ∀ z, Reads start functions g p z → ReflTransGen start.Depends z p →
          rank z < rank p ∧ h.content z ≠ .error .loop := by
        rintro z ⟨next, hlook⟩ hback
        obtain ⟨d, hd⟩ := known_of_leads (fun _ _ hx => hx) hwithin hlook hl.on
        obtain ⟨⟨next', hlook'⟩, hk⟩ := Knowledge.on_eq_some.1 hd
        obtain ⟨_, hr, rfl⟩ := knownBefore_eq_some.1 hk
        have hin : start.contains z := by
          obtain rfl | hback := reflTransGen_iff_eq_or_transGen.1 hback
          · exact contains_of_reads ⟨next, hlook⟩
          · obtain ⟨y, hy, _⟩ := TransGen.head'_iff.1 hback
            exact contains_of_depends hy
        obtain ⟨_, hnez⟩ | hloose := hh.seen_of_ne_loop hl hne hk hlook' hin
        · exact ⟨hr, hnez⟩
        · exact absurd ⟨p, z, .refl, hloose, hback⟩ hp
      refine ⟨?_, hfirst⟩
      obtain ⟨rank', bound, hs'⟩ := hg.settled
      cases (hs' p (hgdone p)).2 with
      | answered hl' =>
        have he := leads_done_unique (hl'.mono knownBefore_within) (hl.on.mono hwithin)
        exact Except.ok.inj he
      | looped _ hloop =>
        have hself := (hg.rank_lt_of_reads hfirst hlater hloop .refl).1
        omega

theorem Faithful.agrees (hg : Faithful start functions g) (hh : Faithful start functions h)
    (hgdone : ∀ p, g.phase p = .done) (hhdone : ∀ p, h.phase p = .done)
    (hp : ¬ start.MeetsLooseLoop p) : g.content p = h.content p := by
  obtain ⟨rankg, _, hsg⟩ := hg.settled
  obtain ⟨rankh, _, hsh⟩ := hh.settled
  induction hn : start.behind p using Nat.strongRecOn generalizing p with
  | _ n ih =>
    have hbehind : ∀ z, start.LooselyReaches p z → g.content z = h.content z := fun z hz =>
      ih (start.behind z) (hn ▸ behind_lt hp hz) (fun hm => hp (.of_reflTrans hz.reflTrans hm)) rfl
    by_cases hneh : h.content p = .error .loop
    · by_cases hneg : g.content p = .error .loop
      · rw [hneh, hneg]
      · exact (hh.agreesAt_of_ne_loop hg hhdone (fun q => (hsg q (hgdone q)).2) hp
          (fun z hz => (hbehind z hz).symm) hneg).content.symm
    · exact (hg.agreesAt_of_ne_loop hh hgdone (fun q => (hsh q (hhdone q)).2) hp
        hbehind hneh).content

theorem Faithful.leads_of_agree (hg : Faithful start functions g) (hh : start.Alike h)
    (hhdone : ∀ p, h.phase p = .done) {rank : Position → Nat} {n : Nat} {r : Except Stop Content}
    (hl : Leads (g.knownBefore rank n) (start.inquiry functions p) (.done r))
    (hagree : ∀ z, rank z < n → start.Depends p z → h.content z = g.content z) :
    Leads h.known (start.inquiry functions p) (.done r) := by
  apply hl.on.mono
  intro z d hz
  obtain ⟨⟨next, hlook⟩, hk⟩ := Knowledge.on_eq_some.1 hz
  obtain ⟨_, hr, rfl⟩ := knownBefore_eq_some.1 hk
  refine known_eq_some.2 ⟨hhdone z, ?_⟩
  by_cases hin : start.contains z
  · exact hagree z hr (depends_of_leads (hg.sound_before rank _) hlook hin)
  · rw [content, hh.cellAt_outside hin, content, hg.alike.cellAt_outside hin]

theorem Faithful.agrees_of_leads (hg : Faithful start functions g)
    (hgdone : ∀ p, g.phase p = .done) (hh : start.Alike h) (hhdone : ∀ p, h.phase p = .done)
    (hcell : ∀ q, ReflTransGen start.Depends p q → h.content q = g.content q ∨
      ¬ Looped start functions g q ∧
        Leads h.known (start.inquiry functions q) (.done (.ok (h.content q)))) :
    h.content p = g.content p := by
  -- The induction is on the rank in the first table.
  obtain ⟨rank, _, hs⟩ := hg.settled
  induction hn : rank p using Nat.strongRecOn generalizing p with
  | _ n ih =>
    obtain hsame | ⟨hnot, hlh⟩ := hcell p .refl
    · exact hsame
    · cases (hs p (hgdone p)).2 with
      | looped he hloop => exact absurd ⟨he, hloop⟩ hnot
      | answered hl =>
        have hlg := hg.leads_of_agree hh hhdone hl fun z hr hto =>
          ih (rank z) (hn ▸ hr) (fun q hq => hcell q (.head hto hq)) rfl
        exact Except.ok.inj (leads_done_unique hlh hlg)

theorem Faithful.agrees_of_loops (hg : Faithful start functions g)
    (hh : Faithful start functions h) (hgdone : ∀ p, g.phase p = .done)
    (hhdone : ∀ p, h.phase p = .done)
    (hloops : ∀ q, ReflTransGen start.Depends p q →
      (g.content q = .error .loop ↔ h.content q = .error .loop)) :
    g.content p = h.content p := by
  refine (hg.agrees_of_leads hgdone hh.alike hhdone fun q hq => ?_).symm
  by_cases he : g.content q = .error .loop
  · exact .inl (((hloops q hq).1 he).trans he.symm)
  · obtain ⟨_, hl⟩ := hh.leads_of_not_looped (hhdone q) fun hloop =>
      he ((hloops q hq).2 hloop.1)
    exact .inr ⟨fun hloop => he hloop.1, hl.mono knownBefore_within⟩

theorem mem_of_depends_call {root id : NodeId} {name : String} {r : Region} {shift : Position}
    {x : Float} (hc : g.content p = .formula root shift x)
    (hn : g.arena.node? root = some (.call name [id]))
    (hr : g.arena.node? id = some (.region r)) (h : g.Depends p q) :
    q ∈ (r.shift shift).positions := by
  have hparts : ∀ y, g.arena.Part root y → y = root ∨ y = id := by
    intro y hy
    cases hy with
    | root => exact .inl rfl
    | argument hn' ho hpart =>
      obtain ⟨rfl, rfl⟩ : _ = name ∧ _ = [id] := by simpa [hn] using hn'.symm
      obtain rfl := List.mem_singleton.1 ho
      cases hpart <;> simp_all
    | _ => simp_all
  obtain (⟨hclone, -⟩ | ⟨hp, hrefers, -⟩) | ⟨hp, hcover, -⟩ := h
  · rw [hc] at hclone
    cases hclone
  · obtain ⟨rfl, rfl⟩ := formulaAt_unique (.own hc) hp
    cases hrefers with
    | relative hpart hn' => obtain rfl | rfl := hparts _ hpart <;> simp_all
    | absolute hpart hn' => obtain rfl | rfl := hparts _ hpart <;> simp_all
  · obtain ⟨rfl, rfl⟩ := formulaAt_unique (.own hc) hp
    cases hcover with
    | member hpart hn' hmem => obtain rfl | rfl := hparts _ hpart <;> simp_all

end Grid

namespace Evaluation
open Grid Relation

variable {text : String} {g : Grid} {log : Array Event} {functions : Functions} {m n : Nat}
  {t u : Progress}

/-- Under two limits the cells from which no loop through a region can be reached come to the same;
and a cell and all that it can reach do so if and only if the same ones among them become the fault
of a loop. -/
theorem evaluate_agrees (hread : Grid.ofText text = .ok (g, log)) (hm : 1 ≤ m) (hn : 1 ≤ n)
    (ht : evaluate ⟨m, functions⟩ { grid := g } = (.ok (), t))
    (hu : evaluate ⟨n, functions⟩ { grid := g } = (.ok (), u)) :
    (∀ p, ¬ g.MeetsLooseLoop p → t.grid.cell? p = u.grid.cell? p) ∧
      ∀ p, (∀ q, ReflTransGen g.Depends p q → t.grid.cell? q = u.grid.cell? q) ↔
        ∀ q, ReflTransGen g.Depends p q →
          (t.grid.content q = .error .loop ↔ u.grid.content q = .error .loop) := by
  have hft : Faithful g functions t.grid :=
    (evaluate_resting hm (resting_of_read hread) ht).faithful
  have hfu : Faithful g functions u.grid :=
    (evaluate_resting hn (resting_of_read hread) hu).faithful
  have htdone := (evaluate_done ht).2
  have hudone := (evaluate_done hu).2
  have hcell := fun q => cell?_eq_iff (p := q) (hft.alike.symm.trans hfu.alike) htdone hudone
  constructor
  · intro p hp
    exact (hcell p).2 (hft.agrees hfu htdone hudone hp)
  · intro p
    constructor
    · intro hall q hq
      rw [(hcell q).1 (hall q hq)]
    · intro hloops q hq
      exact (hcell q).2
        (hft.agrees_of_loops hfu htdone hudone fun r hr => hloops r (hq.trans hr))

def loopBesideSum : Grid :=
  ⟨1, 5, #v[#v[⟨.formula 0 .origin 0.0, .pending⟩, ⟨.formula 2 .origin 0.0, .pending⟩,
    ⟨.formula 3 .origin 0.0, .pending⟩, ⟨.formula 5 .origin 0.0, .pending⟩,
    ⟨.number 5.0, .pending⟩]],
    ⟨#[.relative ⟨0, 1⟩, .region ⟨⟨0, 2⟩, ⟨0, 2⟩⟩, .call "sum" [1], .relative ⟨0, 1⟩,
      .region ⟨⟨0, 4⟩, ⟨0, 4⟩⟩, .call "sum" [4]]⟩⟩

def loopBesideSumUnder (limit : Nat) : Progress :=
  (evaluate ⟨limit, .builtin⟩ { grid := loopBesideSum }).2

theorem not_meetsLooseLoop_loopBesideSum : ¬ loopBesideSum.MeetsLooseLoop ⟨0, 3⟩ := by
  have hnone : ∀ q, ¬ loopBesideSum.Depends ⟨0, 4⟩ q := fun q hq => absurd hq.isDeferred (by decide)
  have honly : ∀ q, loopBesideSum.Depends ⟨0, 3⟩ q → q = ⟨0, 4⟩ := fun q hq => by
    have hmem : q ∈ (Region.shift ⟨⟨0, 4⟩, ⟨0, 4⟩⟩ .origin).positions :=
      mem_of_depends_call (x := 0.0) rfl rfl rfl hq
    exact List.mem_singleton.1 hmem
  rintro ⟨q, r, hq, hqr, hr⟩
  have hr' : TransGen loopBesideSum.Depends q q := .head' (.inr hqr) hr
  obtain rfl | ⟨y, hy, hyq⟩ := hq.cases_head
  · -- The fourth cell would be met again behind the number.
    obtain rfl := honly r (.inr hqr)
    obtain he | ⟨y, hy, -⟩ := hr.cases_head
    · cases he
    · exact hnone y hy
  · obtain rfl := honly y hy
    obtain rfl | ⟨z, hz, -⟩ := hyq.cases_head
    · exact hnone r (.inr hqr)
    · exact hnone z hz

theorem evaluate_agrees_loopBesideSum :
    Grid.ofText "=B1|=sum(C1:C1)|=B1|=sum(E1:E1)|5" = .ok (loopBesideSum, #[]) ∧
      (¬ loopBesideSum.MeetsLooseLoop ⟨0, 3⟩ ∧
        (loopBesideSumUnder 3).grid.cell? ⟨0, 3⟩ = (loopBesideSumUnder 100).grid.cell? ⟨0, 3⟩) ∧
      ¬ (∀ q, ReflTransGen loopBesideSum.Depends ⟨0, 0⟩ q →
        (loopBesideSumUnder 3).grid.cell? q = (loopBesideSumUnder 100).grid.cell? q) ∧
      ∀ p, (∀ q, ReflTransGen loopBesideSum.Depends p q →
          (loopBesideSumUnder 3).grid.cell? q = (loopBesideSumUnder 100).grid.cell? q) ↔
        ∀ q, ReflTransGen loopBesideSum.Depends p q →
          ((loopBesideSumUnder 3).grid.content q = .error .loop ↔
            (loopBesideSumUnder 100).grid.content q = .error .loop) := by
  have hread : Grid.ofText "=B1|=sum(C1:C1)|=B1|=sum(E1:E1)|5" = .ok (loopBesideSum, #[]) :=
    ok_of_toOption (by decide +kernel)
  have hm : evaluate ⟨3, .builtin⟩ { grid := loopBesideSum } = (.ok (), loopBesideSumUnder 3) :=
    Action.eq_ok (by decide +kernel)
  have hn : evaluate ⟨100, .builtin⟩ { grid := loopBesideSum } =
      (.ok (), loopBesideSumUnder 100) :=
    Action.eq_ok (by decide +kernel)
  obtain ⟨hoff, hiff⟩ := evaluate_agrees hread (by decide) (by decide) hm hn
  refine ⟨hread, ⟨not_meetsLooseLoop_loopBesideSum, hoff _ not_meetsLooseLoop_loopBesideSum⟩,
    fun hall => ?_, hiff⟩
  have hloop : (loopBesideSumUnder 100).grid.content ⟨0, 0⟩ = .error .loop := by decide +kernel
  have hsame := ((hiff ⟨0, 0⟩).1 hall ⟨0, 0⟩ .refl).2 hloop
  exact absurd hsame (by decide +kernel)

def loopThroughRegion : Grid :=
  ⟨1, 3, #v[#v[⟨.formula 0 .origin 0.0, .pending⟩, ⟨.formula 2 .origin 0.0, .pending⟩,
    ⟨.formula 3 .origin 0.0, .pending⟩]],
    ⟨#[.relative ⟨0, 1⟩, .region ⟨⟨0, 2⟩, ⟨0, 2⟩⟩, .call "sum" [1], .relative ⟨0, 1⟩]⟩⟩

/-- A loop through a region is broken at a cell that the limit decides, so the other cells do not
agree. -/
theorem evaluate_disagrees :
    Grid.ofText "=B1|=sum(C1:C1)|=B1" = .ok (loopThroughRegion, #[]) ∧
      (evaluate ⟨3, .builtin⟩ { grid := loopThroughRegion }).1 = .ok () ∧
      (evaluate ⟨100, .builtin⟩ { grid := loopThroughRegion }).1 = .ok () ∧
      (evaluate ⟨3, .builtin⟩ { grid := loopThroughRegion }).2.grid.cell? ⟨0, 0⟩ =
        some ⟨.formula 0 .origin 0.0, .done⟩ ∧
      (evaluate ⟨100, .builtin⟩ { grid := loopThroughRegion }).2.grid.cell? ⟨0, 0⟩ =
        some ⟨.error .loop, .done⟩ := by
  refine ⟨ok_of_toOption ?_, ok_of_toOption ?_, ok_of_toOption ?_, ?_, ?_⟩
  all_goals decide +kernel

end Evaluation

end GridCalc
