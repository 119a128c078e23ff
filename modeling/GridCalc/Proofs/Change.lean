import GridCalc.Proofs.Evidence
import GridCalc.Proofs.Reading
import GridCalc.Proofs.Restart

/-!
# Changes of a table

All that an evaluation ever does to a table, one cell at a time: a waiting cell is begun, or is done
if there is nothing to work out; a cell under way gets its value, becomes a copy of the source it
clones, or waits again; and a cell that is not done becomes the fault of a loop. Whatever way an
evaluation takes and however it ends, the table it leaves comes from such changes; so what each of
them preserves holds in every state that is ever reached.
-/

set_option autoImplicit false

namespace GridCalc

namespace Grid
open Inquiry Relation

inductive Change (g : Grid) : Grid → Prop
  | literal {p : Position} : g.phase p = .pending → ¬ (g.content p).isDeferred →
      Change g (g.set p ⟨g.content p, .done⟩)
  | begun {p : Position} : g.phase p = .pending → (g.content p).isDeferred → Change g (g.marked p)
  | released {p : Position} : g.phase p = .active → Change g (g.released p)
  | looped {p : Position} : g.phase p ≠ .done → Change g (g.set p (.ofFault .loop))
  | valued {p shift : Position} {root : NodeId} {x : Float} {v : Except Stop Float} {c : Content} :
      g.phase p = .active → g.content p = .formula root shift x →
      settledFormula root shift v = .ok c → Change g (g.set p ⟨c, .done⟩)
  | copied {p : Position} {d : Direction} {offset : Int} : g.phase p = .active →
      g.content p = .clone d offset → g.phase (p.move d offset) = .done →
      (∀ root shift x, g.content (p.move d offset) ≠ .formula root shift x) →
      Change g (g.set p ⟨g.content (p.move d offset), .done⟩)
  | moved {p shift : Position} {d : Direction} {offset : Int} {root : NodeId} {x : Float} :
      g.phase p = .active → g.content p = .clone d offset → g.phase (p.move d offset) = .done →
      g.content (p.move d offset) = .formula root shift x →
      Change g (g.set p ⟨.formula root (shift.move d.reverse offset) 0.0, .pending⟩)

def Changes : Grid → Grid → Prop := ReflTransGen Change

theorem Changes.refl (g : Grid) : g.Changes g := ReflTransGen.refl

theorem Changes.trans {g h i : Grid} (hg : g.Changes h) (hh : h.Changes i) : g.Changes i :=
  ReflTransGen.trans hg hh

theorem Change.changes {g h : Grid} (hg : g.Change h) : g.Changes h := ReflTransGen.single hg

theorem changes_released (g : Grid) (p : Position) : g.Changes (g.released p) := by
  by_cases hp : g.phase p = .active
  · exact (Change.released hp).changes
  · rw [Grid.released, if_neg hp]
    exact .refl g

theorem Advance.content_of_active {g h : Grid} {p : Position} (ha : g.Advance h)
    (hg : g.phase p = .active) (hh : h.phase p = .active) : h.content p = g.content p := by
  rcases ha.active p hg with hsame | hloop
  · rw [content, hsame, content]
  · rw [phase, hloop] at hh
    cases hh

/-- What holds of a table however far its evaluation has got: each formula is that of its position
as the table was written, a clone is one that was written and is not done, and only formulas and
clones are under way. -/
structure Kept (start g : Grid) : Prop where
  alike : start.Alike g
  formula : ∀ {p root shift x}, g.content p = .formula root shift x → start.FormulaAt p root shift
  clone : ∀ {p d offset}, g.content p = .clone d offset →
    start.content p = .clone d offset ∧ g.phase p ≠ .done
  active : ∀ {p}, g.phase p = .active → (g.content p).isDeferred

theorem Kept.isDeferred {start g : Grid} {p : Position} (hg : Kept start g)
    (hp : (g.content p).isDeferred) :
    (start.content p).isDeferred := by
  cases hc : g.content p with
  | formula root shift x =>
    cases hg.formula hc with
    | own hc' => rw [hc']; rfl
    | clone hc' _ => rw [hc']; rfl
  | clone d offset => rw [(hg.clone hc).1]; rfl
  | _ => simp [hc, Content.isDeferred] at hp

theorem Fresh.kept {g : Grid} (hg : g.Fresh) : Kept g g := by
  refine ⟨.refl g, fun hc => .own hc, fun {p d offset} hc => ⟨hc, ?_⟩, fun {p} hp => ?_⟩
  all_goals
    have hfresh := hg p
    rw [phase] at *
    rw [content] at *
    generalize g.cellAt p = c at *
    cases hfresh with
    | pending c => simp_all
    | fault f => simp_all [Cell.ofFault]

theorem Kept.set {start g : Grid} {p : Position} {c : Cell} (hg : Kept start g)
    (hp : g.phase p ≠ .done)
    (hformula : ∀ root shift x, c.content = .formula root shift x → start.FormulaAt p root shift)
    (hclone : ∀ d offset, c.content = .clone d offset →
      start.content p = .clone d offset ∧ c.phase ≠ .done)
    (hactive : c.phase = .active → c.content.isDeferred) : Kept start (g.set p c) := by
  have hin := contains_of_phase hp
  have hself := content_set_self (c := c) hin
  have hphase := phase_set_self (c := c) hin
  refine ⟨hg.alike.trans (alike_set g p c), fun {q root shift x} hq => ?_,
    fun {q d offset} hq => ?_, fun {q} hq => ?_⟩
  all_goals by_cases hqp : q = p
  · subst hqp
    exact hformula root shift x (hself ▸ hq)
  · exact hg.formula (content_set_ne (c := c) hqp ▸ hq)
  · subst hqp
    rw [hphase]
    exact hclone d offset (hself ▸ hq)
  · rw [phase_set_ne hqp]
    exact hg.clone (content_set_ne (c := c) hqp ▸ hq)
  · subst hqp
    rw [hself]
    exact hactive (hphase ▸ hq)
  · rw [content_set_ne hqp]
    exact hg.active (phase_set_ne (c := c) hqp ▸ hq)

theorem Change.kept {start g h : Grid} (hg : Kept start g) (hh : g.Change h) : Kept start h := by
  cases hh with
  | @literal p hp hc =>
    refine hg.set (by simp [hp]) (fun root shift x he => ?_) (fun d offset he => ?_) (by simp)
    all_goals
      dsimp only at he
      simp [he, Content.isDeferred] at hc
  | @begun p hp hc =>
    exact hg.set (by simp [hp]) (fun root shift x he => hg.formula he)
      (fun d offset he => ⟨(hg.clone he).1, by simp⟩) fun _ => hc
  | @released p hp =>
    rw [Grid.released, if_pos hp]
    exact hg.set (by simp [hp]) (fun root shift x he => hg.formula he)
      (fun d offset he => ⟨(hg.clone he).1, by simp⟩) (by simp)
  | @looped p hp =>
    exact hg.set hp (by simp [Cell.ofFault]) (by simp [Cell.ofFault]) (by simp [Cell.ofFault])
  | @valued p shift root x v c hp hc hv =>
    obtain ⟨y, -, rfl⟩ | ⟨f, -, rfl⟩ := settledFormula_ok hv
    · refine hg.set (by simp [hp]) ?_ (by simp) (by simp)
      rintro _ _ _ ⟨⟩
      exact hg.formula hc
    · exact hg.set (by simp [hp]) (by simp) (by simp) (by simp)
  | @copied p d offset hp hc hsource hnot =>
    refine hg.set (by simp [hp]) (fun root shift x he => absurd he (hnot root shift x))
      (fun d' offset' he => absurd hsource (hg.clone he).2) (by simp)
  | @moved p shift d offset root x hp hc hsource hformula =>
    refine hg.set (by simp [hp]) ?_ (by simp) (by simp)
    rintro _ _ _ ⟨⟩
    rw [Position.move_reverse_eq_shift]
    exact .clone (hg.clone hc).1 (hg.formula hformula)

theorem Changes.kept {start g h : Grid} (hg : Kept start g) (hh : g.Changes h) : Kept start h := by
  induction hh with
  | refl => exact hg
  | tail _ hstep ih => exact hstep.kept ih

end Grid

namespace Evaluation
open Grid Inquiry

variable {ctx : Context} {ask : Position → Evaluation Unit} {p : Position} {s t : Progress}
  {r : Except Stop Unit}

/-- A way to have cells settled that does nothing but change the table. -/
def MakesChanges (ask : Position → Evaluation Unit) : Prop :=
  ∀ {p s r t}, ask p s = (r, t) → s.grid.Changes t.grid

theorem run_changes {α : Type} (hask : MakesChanges ask) {q : Inquiry α} {g h : Grid}
    {r : Except Stop α} (hq : q.Run ask g r h) : g.Changes h := by
  induction hq with
  | done => exact .refl _
  | stopped hs hp => exact hs ▸ hask hp
  | looked hs hp _ _ ih => exact (hs ▸ hask hp).trans ih

theorem rootValue_changes (hsettles : Settles ask) (hask : MakesChanges ask)
    {functions : Functions} {root : NodeId} {shift : Position} {v : Except Stop Float}
    (h : rootValue ask functions shift root s = (v, t)) : s.grid.Changes t.grid :=
  run_changes hask (follows_rootValue hsettles.asks root s v t (.refl s.grid) h).1

theorem content_marked {g : Grid} (hp : g.phase p = .pending) :
    (g.marked p).content p = g.content p := by
  rw [marked, content_set_self (contains_of_phase (by simp [hp])), content]

theorem settleFormula_changes (hsettles : Settles ask) (hask : MakesChanges ask) {root : NodeId}
    {shift : Position} {x : Float} (hp : s.grid.phase p = .pending)
    (hc : s.grid.content p = .formula root shift x)
    (h : settleFormula ctx ask p root shift s = (r, t)) : s.grid.Changes t.grid := by
  obtain ⟨s', u, v, hs, hv, hend⟩ := settleFormula_cases h
  have hbegun : s.grid.Changes s'.grid := hs ▸ (Change.begun hp (by rw [hc]; rfl)).changes
  have hvalue := hbegun.trans (rootValue_changes hsettles hask hv)
  have hadvance := (rootValue_orderly hsettles hv).1.advance
  generalize t.grid = h at hend
  cases hend with
  | settled hsettled =>
    by_cases hu : u.grid.phase p = .active
    · have hactive : s'.grid.phase p = .active := hs ▸ phase_marked hp
      have hcontent : u.grid.content p = .formula root shift x := by
        rw [hadvance.content_of_active hactive hu, hs, content_marked hp, hc]
      rw [finished, if_pos hu]
      exact hvalue.trans (Change.valued hu hcontent hsettled).changes
    · rw [finished, if_neg hu]
      exact hvalue
  | deep => exact hvalue.trans (changes_released u.grid p)
  | broken => exact hvalue

theorem source_changes (hsettles : Settles ask) (hask : MakesChanges ask) {s' u : Progress}
    {q : Position} {v : Except Stop Unit} (hp : s.grid.phase p = .pending)
    (hc : (s.grid.content p).isDeferred) (hs : s'.grid = s.grid.marked p)
    (hv : ask q s' = (v, u)) :
    s.grid.Changes u.grid ∧ (u.grid.phase p = .active → u.grid.content p = s.grid.content p) := by
  -- While its source is settled, a clone stays what it is or becomes a loop.
  have hbegun : s.grid.Changes s'.grid := hs ▸ (Change.begun hp hc).changes
  have hactive : s'.grid.phase p = .active := hs ▸ phase_marked hp
  refine ⟨hbegun.trans (hask hv), fun hu => ?_⟩
  rw [(hsettles.settling hv).orderly.advance.content_of_active hactive hu, hs, content_marked hp]

theorem settleClone_changes (hsettles : Settles ask) (hask : MakesChanges ask) {d : Direction}
    {offset : Int} (hp : s.grid.phase p = .pending) (hc : s.grid.content p = .clone d offset)
    (h : settleClone ctx ask p d offset s = (r, t)) : s.grid.Changes t.grid := by
  obtain ⟨s', u, v, hs, hv, hend⟩ := settleClone_cases h
  obtain ⟨hsource, hcontent⟩ := source_changes hsettles hask hp (by rw [hc]; rfl) hs hv
  rw [hc] at hcontent
  have hdone := (hsettles.settling hv).done
  cases hend with
  | deep _ ht => exact ht ▸ hsource.trans (changes_released u.grid p)
  | stopped _ ht => exact ht ▸ hsource
  | broken _ ht => exact ht ▸ hsource
  | unnamed ht => exact ht ▸ hsource
  | copied hu hnot ht =>
    exact ht ▸ hsource.trans (Change.copied hu (hcontent hu) (hdone rfl) hnot).changes
  | @formula root shift x w _ t' _ hu hformula hw hsettle ht =>
    have hmoved : s.grid.Changes w.grid :=
      hw ▸ hsource.trans (Change.moved hu (hcontent hu) (hdone rfl) hformula).changes
    have hin : u.grid.contains p := contains_of_phase (by simp [hu])
    have hwait : w.grid.phase p = .pending := by rw [hw, phase_set_self hin]
    have hcopy : w.grid.content p = .formula root (shift.move d.reverse offset) 0.0 := by
      rw [hw, content_set_self hin]
    exact ht ▸ hmoved.trans (settleFormula_changes hsettles hask hwait hcopy hsettle)

theorem settleStep_changes {deeper : Option (Position → Evaluation Unit)}
    (hsettles : ∀ ask, deeper = some ask → Settles ask)
    (hask : ∀ ask, deeper = some ask → MakesChanges ask) :
    MakesChanges (settleStep ctx deeper) := by
  intro p s r t h
  cases settleStep_cases h with
  | done => exact .refl _
  | loop hp => exact (Change.looped (by simp [hp])).changes
  | literal hp hc => exact Progress.grid_mark s p .done ▸ (Change.literal hp hc).changes
  | beyond => exact .refl _
  | unnamed => exact .refl _
  | formula ha hp hc h => exact settleFormula_changes (hsettles _ ha) (hask _ ha) hp hc h
  | clone ha hp hc h => exact settleClone_changes (hsettles _ ha) (hask _ ha) hp hc h

theorem settleWithin_changes (ctx : Context) (levels : Nat) :
    MakesChanges (settleWithin ctx levels) :=
  settleWithin_of_step (P := MakesChanges) (fun _ hsettles hask => settleStep_changes hsettles hask)
    levels

theorem settle_changes (h : settle ctx p s = (r, t)) : s.grid.Changes t.grid :=
  settleWithin_changes ctx ctx.limit h

theorem restartStep_changes {waiting : List Position} {v : Except Stop (List Position)}
    (h : restartStep ctx waiting s = (v, t)) : s.grid.Changes t.grid := by
  cases waiting with
  | nil =>
    cases h
    exact .refl _
  | cons p rest =>
    cases restartStep_cases h with
    | settled hu => exact settle_changes hu
    | @looped q name u _ hu _ ht =>
      have hq := ((settle_settles ctx).settling hu).orderly.deep q name rfl
      exact ht ▸ (settle_changes hu).trans (Change.looped (by simp [hq])).changes
    | resumed hu _ ht => exact ht ▸ settle_changes hu
    | stopped _ hu => exact settle_changes hu

end Evaluation

end GridCalc
