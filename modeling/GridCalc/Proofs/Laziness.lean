import GridCalc.Proofs.Calls

/-!
# Laziness

A cell that is asked for leaves alone every cell that it does not depend on, however far its
evaluation gets. While it is worked out other cells are begun, clones are replaced by formulas with
references of their own, chains are taken up again from their far end and loops are broken from
outside. But a formula that has come from a clone refers to what the clone has depended on all
along, a cell found too deep is one that was looked for, and a loop is broken at one that is
waiting. So all that is touched lies within what the table leads to from the cell, as the table was
before.
-/

set_option autoImplicit false

namespace GridCalc

namespace Grid
open Relation

variable {start g h i g' h' : Grid} {p q : Position} {α β : Type} {r : Except Stop α}

theorem Kept.self (hg : Kept start g) : Kept g g :=
  ⟨.refl g, fun hc => .own hc, fun hc => ⟨hc, (hg.clone hc).2⟩, hg.active⟩

theorem Kept.formulaAt (hg : Kept start g) {root : NodeId} {shift : Position}
    (h : g.FormulaAt p root shift) : start.FormulaAt p root shift := by
  induction h with
  | own hc => exact hg.formula hc
  | clone hc _ ih => exact .clone (hg.clone hc).1 ih

theorem Kept.depends (hg : Kept start g) (h : g.Depends p q) : start.Depends p q := by
  have harena : start.arena = g.arena := hg.alike.arena.symm
  obtain (⟨hc, hin⟩ | ⟨hp, hr, hin⟩) | ⟨hp, hcover, hin⟩ := h
  · exact .inl (.source (hg.clone hc).1 (hg.alike.contains.1 hin))
  · refine .inl (.reference (hg.formulaAt hp) ?_ (hg.alike.contains.1 hin))
    cases hr with
    | relative hpart hn => exact .relative (harena ▸ hpart) (harena ▸ hn)
    | absolute hpart hn => exact .absolute (harena ▸ hpart) (harena ▸ hn)
  · refine .inr (.member (hg.formulaAt hp) ?_ (hg.alike.contains.1 hin))
    cases hcover with
    | member hpart hn hm => exact .member (harena ▸ hpart) (harena ▸ hn) hm

/-- A computation for the cell at `p` with the given result has made the second table of the first:
it has touched nothing that the cell does not lead to, nor found such a cell too deep. -/
structure Confined (start : Grid) (p : Position) (g : Grid) (r : Except Stop α) (h : Grid) :
    Prop where
  same : ∀ q, ¬ ReflTransGen start.Depends p q → h.cellAt q = g.cellAt q
  deep : ∀ q name, r = .error (.tooDeep q name) → ReflTransGen start.Depends p q

theorem confined_of_alikeOff (hr : Shallow r) (hg : AlikeOff p g h) : Confined start p g r h :=
  ⟨fun q hq => hg.same q fun he => hq (he ▸ .refl), fun _ _ he => absurd trivial (hr _ he)⟩

theorem Confined.refl (hr : Shallow r) (g : Grid) : Confined start p g r g :=
  confined_of_alikeOff hr (.refl p g)

theorem Confined.trans {v : Except Stop β} (hg : Confined start p g v h)
    (hh : Confined start p h r i) : Confined start p g r i :=
  ⟨fun q hq => (hh.same q hq).trans (hg.same q hq), hh.deep⟩

theorem Confined.around {v : Except Stop β} (hg : AlikeOff p g g') (hc : Confined start p g' v h')
    (hh : AlikeOff p h' h)
    (hdeep : ∀ q name, r = .error (.tooDeep q name) → v = .error (.tooDeep q name)) :
    Confined start p g r h := by
  refine ⟨fun q hq => ?_, fun q name he => hc.deep q name (hdeep q name he)⟩
  have hqp : q ≠ p := fun he => hq (he ▸ .refl)
  rw [hh.same q hqp, hc.same q hq, hg.same q hqp]

end Grid

namespace Evaluation
open Grid Inquiry Relation

variable {ctx : Context} {ask : Position → Evaluation Unit} {p q : Position} {s t : Progress}
  {r : Except Stop Unit} {start g h : Grid}

def Confines (start : Grid) (ask : Position → Evaluation Unit) : Prop :=
  ∀ {p s r t}, Kept start s.grid → ask p s = (r, t) → Confined start p s.grid r t.grid

/-- A cell that is asked for is a dependence, or lies outside the table, where there is nothing to
touch. -/
theorem Confines.asked (hask : Confines start ask) (hsettles : Settles ask)
    (hs : Kept start s.grid) (hlead : start.contains q → start.Depends p q)
    (h : ask q s = (r, t)) : Confined start p s.grid r t.grid := by
  obtain ⟨hsame, hdeep⟩ := hask hs h
  have horderly := (hsettles.settling h).orderly
  by_cases hin : start.contains q
  · have hpq := hlead hin
    exact ⟨fun x hx => hsame x fun hr => hx (.head hpq hr),
      fun x name he => .head hpq (hdeep x name he)⟩
  · -- nothing is found outside the table, and nothing there is ever changed
    have honly : ∀ x, ReflTransGen start.Depends q x → x = q := by
      intro x hx
      obtain rfl | ⟨y, hy, -⟩ := hx.cases_head
      · rfl
      · exact absurd (contains_of_depends hy) hin
    have hafter := hs.alike.trans horderly.advance.alike
    refine ⟨fun x _ => ?_, fun x name he => ?_⟩
    · by_cases hx : ReflTransGen start.Depends q x
      · rw [honly x hx, hafter.cellAt_outside hin, hs.alike.cellAt_outside hin]
      · exact hsame x hx
    · have hpending := horderly.deep x name he
      rw [honly x (hdeep x name he)] at hpending
      exact absurd (hafter.contains.1 (contains_of_phase (by simp [hpending]))) hin

theorem run_confined (hask : Confines start ask) (hsettles : Settles ask)
    (hchanges : MakesChanges ask) {α : Type} {S L : Position → Prop}
    (hlead : ∀ q, S q ∨ L q → start.contains q → start.Depends p q) {i : Inquiry α}
    {v : Except Stop α} (hi : i.Run ask g v h) (hg : Kept start g) (hlooks : i.Looks S L) :
    Confined start p g v h := by
  induction hi with
  | done hs => exact .refl hs _
  | stopped hs hq =>
    subst hs
    obtain ⟨hsame, hdeep⟩ := hask.asked hsettles hg (hlead _ (hlooks.1.imp And.left id)) hq
    exact ⟨hsame, fun x name he => hdeep x name (by cases he; rfl)⟩
  | looked hs hq _ _ ih =>
    subst hs
    have hfirst := hask.asked hsettles hg (hlead _ (hlooks.1.imp And.left id)) hq
    exact hfirst.trans (ih ((hchanges hq).kept hg) (hlooks.2 _))

theorem settleFormula_confined (hask : Confines start ask) (hsettles : Settles ask)
    (hchanges : MakesChanges ask) {root : NodeId} {shift : Position} {x : Float}
    (hs : Kept start s.grid) (hp : s.grid.phase p = .pending)
    (hc : s.grid.content p = .formula root shift x)
    (h : settleFormula ctx ask p root shift s = (r, t)) : Confined start p s.grid r t.grid := by
  obtain ⟨s', u, v, hs', hv, hend⟩ := settleFormula_cases h
  have hbegun : Kept start s'.grid := hs' ▸ (Change.begun hp (by rw [hc]; rfl)).kept hs
  have hmark : AlikeOff p s.grid s'.grid := hs' ▸ alikeOff_set s.grid p _
  have hformula := hs.formula hc
  have hlead : ∀ q, start.Refers root shift q ∨ start.Covers root shift q → start.contains q →
      start.Depends p q := fun q hq hin =>
    hq.imp (fun hr => .reference hformula hr hin) (fun hm => .member hformula hm hin)
  have hvalue : Confined start p s'.grid v u.grid := run_confined hask hsettles hchanges hlead
    (follows_rootValue hsettles.asks root s' v u hbegun.alike hv).1 hbegun
    (looks_formulaValue root)
  generalize t.grid = i at hend
  cases hend with
  | settled => exact hvalue.around hmark (alikeOff_finished _ p _) (by simp)
  | deep =>
    refine hvalue.around hmark (alikeOff_released _ p) ?_
    rintro q name ⟨⟩
    rfl
  | broken => exact hvalue.around hmark (.refl p _) (by simp)

theorem settleClone_confined (hask : Confines start ask) (hsettles : Settles ask)
    (hchanges : MakesChanges ask) {d : Direction} {offset : Int} (hs : Kept start s.grid)
    (hp : s.grid.phase p = .pending) (hc : s.grid.content p = .clone d offset)
    (h : settleClone ctx ask p d offset s = (r, t)) : Confined start p s.grid r t.grid := by
  -- What the clone becomes is a formula of the table, so its references are dependences, too.
  obtain ⟨s', u, v, hs', hv, hend⟩ := settleClone_cases h
  have hdeferred : (s.grid.content p).isDeferred := by rw [hc]; rfl
  have hbegun : Kept start s'.grid := hs' ▸ (Change.begun hp hdeferred).kept hs
  have hmark : AlikeOff p s.grid s'.grid := hs' ▸ alikeOff_set s.grid p _
  have hsource : Confined start p s'.grid v u.grid := hask.asked hsettles hbegun
    (fun hin => .inl (.source (hs.clone hc).1 hin)) hv
  cases hend with
  | deep _ ht =>
    refine hsource.around hmark (ht ▸ alikeOff_released _ p) ?_
    rintro q name ⟨⟩
    rfl
  | stopped hdeep ht =>
    refine hsource.around hmark (ht ▸ .refl p _) ?_
    rintro q name ⟨⟩
    exact absurd trivial hdeep
  | broken _ ht => exact hsource.around hmark (ht ▸ .refl p _) (by simp)
  | unnamed ht => exact hsource.around hmark (ht ▸ .refl p _) (by simp)
  | copied _ _ ht => exact hsource.around hmark (ht ▸ alikeOff_set _ p _) (by simp)
  | @formula root shift x w _ t' _ hu hformula hw hsettle ht =>
    obtain ⟨hchanged, hcontent⟩ := source_changes hsettles hchanges hp hdeferred hs' hv
    have hin : u.grid.contains p := contains_of_phase (by simp [hu])
    have hdone := (hsettles.settling hv).done rfl
    -- the formula that is moved here is one that the table at the start has at `p`
    have hmoved : Kept start w.grid :=
      hw ▸ (Change.moved hu ((hcontent hu).trans hc) hdone hformula).kept (hchanged.kept hs)
    have hwait : w.grid.phase p = .pending := by rw [hw, phase_set_self hin]
    have hcopy : w.grid.content p = .formula root (shift.move d.reverse offset) 0.0 := by
      rw [hw, content_set_self hin]
    have hset : AlikeOff p u.grid w.grid := hw ▸ alikeOff_set u.grid p _
    have hbefore : Confined start p s.grid (.ok () : Except Stop Unit) w.grid :=
      hsource.around hmark hset (by simp)
    rw [ht]
    exact hbefore.trans
      (settleFormula_confined hask hsettles hchanges hmoved hwait hcopy hsettle)

theorem settleStep_confines {deeper : Option (Position → Evaluation Unit)}
    (hask : ∀ ask, deeper = some ask → Confines start ask)
    (hsettles : ∀ ask, deeper = some ask → Settles ask)
    (hchanges : ∀ ask, deeper = some ask → MakesChanges ask) :
    Confines start (settleStep ctx deeper) := by
  intro p s r t hs h
  cases settleStep_cases h with
  | done => exact .refl (shallow_ok ()) _
  | loop => exact confined_of_alikeOff (shallow_ok ()) (alikeOff_set s.grid p _)
  | literal =>
    rw [Progress.grid_mark]
    exact confined_of_alikeOff (shallow_ok ()) (alikeOff_set s.grid p _)
  | beyond =>
    refine ⟨fun _ _ => rfl, ?_⟩
    rintro q name ⟨⟩
    exact .refl
  | unnamed => exact .refl (shallow_breakdown _) _
  | formula ha hp hc h =>
    exact settleFormula_confined (hask _ ha) (hsettles _ ha) (hchanges _ ha) hs hp hc h
  | clone ha hp hc h =>
    exact settleClone_confined (hask _ ha) (hsettles _ ha) (hchanges _ ha) hs hp hc h

theorem settleWithin_confines (start : Grid) (ctx : Context) (levels : Nat) :
    Confines start (settleWithin ctx levels) := by
  refine (settleWithin_of_step (P := fun ask => MakesChanges ask ∧ Confines start ask)
    (fun deeper hsettles hask => ?_) levels).2
  have hchanges : ∀ ask, deeper = some ask → MakesChanges ask := fun ask ha => (hask ask ha).1
  exact ⟨settleStep_changes hsettles hchanges,
    settleStep_confines (fun ask ha => (hask ask ha).2) hsettles hchanges⟩

theorem settle_confined (hs : Kept start s.grid) (h : settle ctx p s = (r, t)) :
    Confined start p s.grid r t.grid := settleWithin_confines start ctx ctx.limit hs h

theorem restartStep_confined {waiting : List Position} {v : Except Stop (List Position)}
    (hs : Kept start s.grid) (hwaiting : ∀ q ∈ waiting, ReflTransGen start.Depends p q)
    (h : restartStep ctx waiting s = (v, t)) :
    (∀ q, ¬ ReflTransGen start.Depends p q → t.grid.cellAt q = s.grid.cellAt q) ∧
      ∀ waiting', v = .ok waiting' → ∀ q ∈ waiting', ReflTransGen start.Depends p q := by
  -- Cells only come to wait if the first of all leads to them.
  cases waiting with
  | nil =>
    cases h
    exact ⟨fun _ _ => rfl, by rintro _ ⟨⟩; simp⟩
  | cons first rest =>
    have hfirst := hwaiting first List.mem_cons_self
    have hsame : ∀ {r u}, settle ctx first s = (r, u) →
        ∀ q, ¬ ReflTransGen start.Depends p q → u.grid.cellAt q = s.grid.cellAt q :=
      fun hu q hq => (settle_confined hs hu).same q fun hr => hq (hfirst.trans hr)
    cases restartStep_cases h with
    | settled hu =>
      refine ⟨hsame hu, ?_⟩
      rintro _ ⟨⟩ q hq
      exact hwaiting q (List.mem_cons_of_mem first hq)
    | @looped q name u _ hu hin ht =>
      refine ⟨fun x hx => ?_, ?_⟩
      · have hne : x ≠ q := by
          rintro rfl
          exact hx (hwaiting x hin)
        rw [ht, cellAt_set_ne hne]
        exact hsame hu x hx
      · rintro _ ⟨⟩
        exact hwaiting
    | @resumed q name u _ hu _ ht =>
      refine ⟨fun x hx => by rw [ht]; exact hsame hu x hx, ?_⟩
      rintro _ ⟨⟩ x hx
      obtain rfl | hx := List.mem_cons.1 hx
      · exact hfirst.trans ((settle_confined hs hu).deep x name rfl)
      · exact hwaiting x hx
    | stopped _ hu => exact ⟨hsame hu, by simp⟩

theorem restart_confined {n : Nat} {waiting : List Position} (hs : Kept start s.grid)
    (hwaiting : ∀ q ∈ waiting, ReflTransGen start.Depends p q)
    (h : restart ctx n waiting s = (r, t)) (hq : ¬ ReflTransGen start.Depends p q) :
    t.grid.cellAt q = s.grid.cellAt q := by
  induction n generalizing waiting s with
  | zero =>
    cases h
    rfl
  | succ n ih =>
    cases waiting with
    | nil =>
      cases h
      rfl
    | cons first rest =>
      rw [restart_cons] at h
      rcases hu : restartStep ctx (first :: rest) s with ⟨v, u⟩
      obtain ⟨hsame, hnext⟩ := restartStep_confined hs hwaiting hu
      cases v with
      | error e =>
        rw [Action.bind_error hu] at h
        cases h
        exact hsame q hq
      | ok waiting' =>
        rw [Action.bind_ok hu] at h
        have hlater := ih ((restartStep_changes hu).kept hs) (hnext waiting' rfl) h
        exact hlater.trans (hsame q hq)

/-- After whatever calls, a cell that is asked for leaves each other cell exactly as it is unless it
depends on it, by way of some others or directly, in the table as it was read and as it is now. -/
theorem ensure_isLazy {text : String} {log : Array Event}
    (hread : Grid.ofText text = .ok (g, log)) (hreached : Reached g s.grid) (ctx : Context)
    (hq : ¬ ReflTransGen g.Depends p q ∨ ¬ ReflTransGen s.grid.Depends p q) :
    (ensure ctx p s).2.grid.cell? q = s.grid.cell? q := by
  have hkept : Kept g s.grid := hreached.changes.kept (fresh_ofText hread).kept
  have hnow : ¬ ReflTransGen s.grid.Depends p q :=
    hq.elim (fun hnot hr => hnot (ReflTransGen.mono (fun _ _ => hkept.depends) p q hr)) id
  have hsame : (ensure ctx p s).2.grid.cellAt q = s.grid.cellAt q := by
    refine restart_confined hkept.self (fun x hx => ?_) rfl hnow
    rw [List.mem_singleton.1 hx]
  have hafter : Kept s.grid (ensure ctx p s).2.grid :=
    (ensure_onlyChanges ctx p s _ _ rfl).kept hkept.self
  exact hafter.alike.cell?_eq hsame

theorem eq_of_depends_reference {root : NodeId} {shift target : Position} {x : Float}
    (hc : g.content p = .formula root shift x) (hn : g.arena.node? root = some (.relative target))
    (h : g.Depends p q) : q = target.shift shift := by
  obtain (⟨hclone, -⟩ | ⟨hp, hr, -⟩) | ⟨hp, hcover, -⟩ := h
  · rw [hc] at hclone
    cases hclone
  · obtain ⟨rfl, rfl⟩ := formulaAt_unique (.own hc) hp
    cases hr with
    | relative hpart hn' => cases hpart <;> simp_all
    | absolute hpart hn' => cases hpart <;> simp_all
  · obtain ⟨rfl, rfl⟩ := formulaAt_unique (.own hc) hp
    cases hcover with
    | member hpart hn' => cases hpart <;> simp_all

def sharedNumber : Grid :=
  ⟨1, 3, #v[#v[⟨.formula 0 .origin 0.0, .pending⟩, ⟨.number 2.0, .pending⟩,
    ⟨.formula 1 .origin 0.0, .pending⟩]], ⟨#[.relative ⟨0, 1⟩, .relative ⟨0, 1⟩]⟩⟩

theorem ensure_isLazy_sharedNumber :
    Grid.ofText "=B1|2|=B1" = .ok (sharedNumber, #[]) ∧
      ¬ ReflTransGen sharedNumber.Depends ⟨0, 0⟩ ⟨0, 2⟩ ∧
      (ensure ⟨100, .builtin⟩ ⟨0, 0⟩
        ((Call.ensure ⟨0, 1⟩).run ⟨100, .builtin⟩ { grid := sharedNumber }).2).2.grid.cell? ⟨0, 2⟩ =
      ((Call.ensure ⟨0, 1⟩).run ⟨100, .builtin⟩ { grid := sharedNumber }).2.grid.cell? ⟨0, 2⟩ := by
  have hread : Grid.ofText "=B1|2|=B1" = .ok (sharedNumber, #[]) :=
    ok_of_toOption (by decide +kernel)
  have hreached : Reached sharedNumber
      ((Call.ensure ⟨0, 1⟩).run ⟨100, .builtin⟩ { grid := sharedNumber }).2.grid :=
    .after _ _ .start
  have hnot : ¬ ReflTransGen sharedNumber.Depends ⟨0, 0⟩ ⟨0, 2⟩ := by
    intro h
    obtain he | ⟨x, hx, h⟩ := h.cases_head
    · cases he
    obtain rfl : x = ⟨0, 1⟩ := (eq_of_depends_reference (x := 0.0) rfl rfl hx).trans rfl
    obtain he | ⟨y, hy, -⟩ := h.cases_head
    · cases he
    · exact absurd hy.isDeferred (by decide)
  exact ⟨hread, hnot, ensure_isLazy hread hreached _ (.inl hnot)⟩

end Evaluation

end GridCalc
