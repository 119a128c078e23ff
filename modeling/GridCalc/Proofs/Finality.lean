import GridCalc.Proofs.Calls
import GridCalc.Proofs.Passage

/-!
# What is done is final

On a table in any state, with any arena and at any depth, no call changes a cell that is done. Cells
are written in few places: where a cell is begun, where it is given up, where its value or copy is
stored, and where a loop is broken. Each of them may come late, when other cells have been worked
out in between and the cell has become a loop itself; so each looks again at what is there, and only
replaces what is not done. Hence whatever a call reports as a loop still is one when the call ends,
also when the cell was under way at the time.
-/

set_option autoImplicit false

namespace GridCalc

def Grid.HasLoop (g : Grid) (name : String) : Prop :=
  ∃ p, p.name = .ok name ∧ g.contains p ∧ g.cellAt p = .ofFault .loop

namespace Progress
open Grid

/-- The second state comes after the first: all that was done then is the same, and all that has
been reported as a loop since is one. -/
structure Later (s t : Progress) : Prop where
  alike : s.grid.Alike t.grid
  done : ∀ p, s.grid.phase p = .done → t.grid.cellAt p = s.grid.cellAt p
  loops : ∃ events, t.log = s.log ++ events ∧ ∀ name, .cycle name ∈ events → t.grid.HasLoop name

variable {s t u : Progress} {p : Position}

theorem Later.phase_done (h : s.Later t) (hp : s.grid.phase p = .done) :
    t.grid.phase p = .done := by
  rw [phase, h.done p hp]
  exact hp

theorem Later.hasLoop (h : s.Later t) {name : String} (hs : s.grid.HasLoop name) :
    t.grid.HasLoop name := by
  obtain ⟨p, hname, hin, hp⟩ := hs
  refine ⟨p, hname, h.alike.contains.2 hin, (h.done p ?_).trans hp⟩
  rw [phase, hp]
  rfl

theorem Later.refl (s : Progress) : s.Later s :=
  ⟨.refl _, fun _ _ => rfl, #[], by simp, by simp⟩

theorem Later.trans (hs : s.Later t) (ht : t.Later u) : s.Later u := by
  obtain ⟨first, hfirst, hloops⟩ := hs.loops
  obtain ⟨second, hsecond, hloops'⟩ := ht.loops
  refine ⟨hs.alike.trans ht.alike, fun p hp => ?_, first ++ second, ?_, fun name hname => ?_⟩
  · exact (ht.done p (hs.phase_done hp)).trans (hs.done p hp)
  · rw [hsecond, hfirst, Array.append_assoc]
  · rcases Array.mem_append.1 hname with hname | hname
    · exact ht.hasLoop (hloops name hname)
    · exact hloops' name hname

theorem later_note (s : Progress) {e : Event} (he : ∀ name, e ≠ .cycle name) :
    s.Later (s.note e) := by
  refine ⟨.refl _, fun _ _ => rfl, #[e], rfl, fun name hname => ?_⟩
  exact absurd (Array.mem_singleton.1 hname).symm (he name)

theorem later_put (c : Cell) (hp : s.grid.phase p ≠ .done) : s.Later (s.put p c) := by
  refine ⟨alike_set _ p c, fun q hq => ?_, #[], by simp [put], by simp⟩
  apply cellAt_set_ne
  rintro rfl
  exact hp hq

theorem later_loop {name : String} (hname : p.name = .ok name) (hp : s.grid.phase p ≠ .done) :
    s.Later ((s.note (.cycle name)).put p (.ofFault .loop)) := by
  have hin := contains_of_phase hp
  have hput := later_put (.ofFault .loop) hp
  refine ⟨hput.alike, hput.done, #[.cycle name], rfl, fun name' hname' => ?_⟩
  cases Array.mem_singleton.1 hname'
  exact ⟨p, hname, hput.alike.contains.2 hin, cellAt_set_self hin⟩

theorem later_mark (phase : Phase) (hp : s.grid.phase p ≠ .done) : s.Later (s.mark p phase) := by
  unfold mark
  split
  · exact later_put _ hp
  · exact .refl s

end Progress

namespace Evaluation
open Grid Inquiry Progress

variable {ctx : Context} {ask : Position → Evaluation Unit} {p : Position} {s t : Progress}
  {r : Except Stop Unit}

theorem passage_later : Passage fun _ => Later where
  refl _ := Later.refl
  trans := Later.trans
  mono _ h := h
  level h := ⟨h.alike, h.done, h.loops⟩
  note _ s _ he := later_note s he
  mark _ _ _ phase hp := later_mark phase hp

theorem settleFormula_later (hask : ∀ q, Passes Later (ask q)) {root : NodeId} {shift : Position}
    (hp : s.grid.phase p ≠ .done) (h : settleFormula ctx ask p root shift s = (r, t)) :
    s.Later t :=
  passage_later.of_settleFormula (n := 0) (passes_rootValue passage_later hask root)
    (fun _ _ _ _ _ ha _ => later_put _ (by simp [ha])) hp h

theorem settleClone_later (hask : ∀ q, Passes Later (ask q)) {d : Direction} {offset : Int}
    (hp : s.grid.phase p ≠ .done) (h : settleClone ctx ask p d offset s = (r, t)) : s.Later t :=
  passage_later.of_settleClone (n := 0) (hask _) (fun _ _ ha => later_put _ (by simp [ha]))
    (fun _ _ _ _ _ _ hw _ hrun => settleFormula_later hask (by simp [hw]) hrun) hp h

/-- What holds of a cell that is found too deep, of its name and of the table that is left. -/
def Finds (P : Position → String → Grid → Prop) (ask : Position → Evaluation Unit) : Prop :=
  ∀ {p s t q name}, ask p s = (.error (.tooDeep q name), t) → P q name t.grid

def Names (ask : Position → Evaluation Unit) : Prop :=
  ∀ {p s t q name}, ask p s = (.error (.tooDeep q name), t) → q.name = .ok name

section

variable {P : Position → String → Grid → Prop}

theorem run_finds (hask : Finds P ask) {α : Type} {i : Inquiry α} {g h : Grid} {v : Except Stop α}
    (hi : i.Run ask g v h) {q : Position} {name : String} (hv : v = .error (.tooDeep q name)) :
    P q name h := by
  induction hi with
  | done hs => exact absurd trivial (hs _ hv)
  | stopped _ hp =>
    cases hv
    exact hask hp
  | looked _ _ _ _ ih => exact ih hv

variable (hreleased : ∀ {q name g}, P q name g → ∀ p, P q name (g.released p))
include hreleased

theorem settleFormula_finds (hsettles : Settles ask) (hask : Finds P ask) {root : NodeId}
    {shift q : Position} {name : String}
    (h : settleFormula ctx ask p root shift s = (.error (.tooDeep q name), t)) :
    P q name t.grid := by
  obtain ⟨s', u, v, _, hv, hend⟩ := settleFormula_cases h
  generalize hr : (Except.error (.tooDeep q name) : Except Stop Unit) = r at hend
  generalize t.grid = i at hend ⊢
  cases hend with
  | settled => cases hr
  | deep =>
    cases hr
    have hrun := (follows_rootValue hsettles.asks root s' _ u (.refl _) hv).1
    exact hreleased (run_finds hask hrun rfl) p
  | broken => cases hr

theorem settleClone_finds (hsettles : Settles ask) (hask : Finds P ask) {d : Direction}
    {offset : Int} {q : Position} {name : String}
    (h : settleClone ctx ask p d offset s = (.error (.tooDeep q name), t)) : P q name t.grid := by
  obtain ⟨_, u, v, _, hv, hend⟩ := settleClone_cases h
  generalize hr : (Except.error (.tooDeep q name) : Except Stop Unit) = r at hend
  cases hend with
  | deep _ ht =>
    cases hr
    exact ht ▸ hreleased (hask hv) p
  | stopped hdeep =>
    cases hr
    exact absurd trivial hdeep
  | broken => cases hr
  | unnamed => cases hr
  | copied => cases hr
  | formula _ _ _ hsettle ht =>
    cases hr
    exact ht ▸ settleFormula_finds hreleased hsettles hask hsettle

/-- What holds of every cell that is out of reach, and is kept when a cell is given up, holds of the
cell that is found in the end. -/
theorem settleWithin_finds (ctx : Context)
    (hbeyond : ∀ {p name g}, g.phase p = .pending → (g.content p).isDeferred →
      p.name = .ok name → P p name g) (levels : Nat) : Finds P (settleWithin ctx levels) := by
  refine settleWithin_of_step (P := Finds P) (fun deeper hsettles hask => ?_) levels
  intro p s t q name h
  generalize hr : (Except.error (.tooDeep q name) : Except Stop Unit) = r at h
  cases settleStep_cases h with
  | beyond hp _ hname =>
    cases hr
    by_cases hc : (s.grid.content p).isDeferred
    · exact hbeyond hp hc hname
    · -- a literal is done at once and never too deep
      rw [settleStep_literal hp hc] at h
      cases h
  | formula ha _ _ h =>
    cases hr
    exact settleFormula_finds hreleased (hsettles _ ha) (hask _ ha) h
  | clone ha _ _ h =>
    cases hr
    exact settleClone_finds hreleased (hsettles _ ha) (hask _ ha) h
  | _ => cases hr

end

theorem settleStep_later {deeper : Option (Position → Evaluation Unit)}
    (hask : ∀ ask, deeper = some ask → ∀ q, Passes Later (ask q)) (p : Position) :
    Passes Later (settleStep ctx deeper p) := by
  intro s
  rcases h : settleStep ctx deeper p s with ⟨r, t⟩
  cases settleStep_cases h with
  | done => exact .refl s
  | loop hp hname => exact later_loop hname (by simp [hp])
  | literal hp => exact later_mark .done (by simp [hp])
  | beyond => exact .refl s
  | unnamed => exact .refl s
  | formula ha hp _ h => exact settleFormula_later (hask _ ha) (by simp [hp]) h
  | clone ha hp _ h => exact settleClone_later (hask _ ha) (by simp [hp]) h

theorem settleWithin_later (ctx : Context) (levels : Nat) (p : Position) :
    Passes Later (settleWithin ctx levels p) :=
  settleWithin_of_step (P := fun ask => ∀ p, Passes Later (ask p))
    (fun _ _ hask => settleStep_later hask) levels p

theorem settleWithin_names (ctx : Context) (levels : Nat) : Names (settleWithin ctx levels) :=
  settleWithin_finds (P := fun q name _ => q.name = .ok name) (fun hname _ => hname) ctx
    (fun _ _ hname => hname) levels

theorem settle_later (ctx : Context) (p : Position) : Passes Later (settle ctx p) :=
  settleWithin_later ctx ctx.limit p

theorem restartStep_later (ctx : Context) (waiting : List Position) :
    Passes Later (restartStep ctx waiting) := by
  -- A loop is broken at a cell that is still waiting.
  refine passes_restartStep (n := 0) passage_later (settle_later ctx)
    (fun p s q name u hu => ?_) waiting
  have hq := ((settle_settles ctx).settling hu).orderly.deep q name rfl
  exact later_loop (settleWithin_names ctx ctx.limit hu) (by simp [hq])

theorem Call.later (ctx : Context) (c : Call) : Passes Later (c.run ctx) := by
  cases c with
  | evaluate => exact passes_evaluate (n := 0) passage_later (restartStep_later ctx)
  | ensure p => exact passes_ensure (n := 0) passage_later (restartStep_later ctx) p
  | value root shift =>
    exact (passes_rootValue passage_later (settle_later ctx) root).bind (n := 0) passage_later
      fun _ => (still_pure ()).passes (n := 0) passage_later
  | numbers r =>
    exact Passes.bind (n := 0) (passes_regionValues (n := 0) passage_later (settle_later ctx) r)
      passage_later fun _ => (still_pure ()).passes (n := 0) passage_later

/-- Whatever state the table is in, and however deep, a call leaves each cell that is done exactly
as it is, and every cell that it reports as a loop is one in the end. -/
theorem call_keepsDone (ctx : Context) (c : Call) (s : Progress) :
    (∀ p content, s.grid.cell? p = some ⟨content, .done⟩ →
      (c.run ctx s).2.grid.cell? p = some ⟨content, .done⟩) ∧
    ∃ events, (c.run ctx s).2.log = s.log ++ events ∧ ∀ name, .cycle name ∈ events →
      ∃ p, p.name = .ok name ∧ (c.run ctx s).2.grid.cell? p = some (.ofFault .loop) := by
  have hlater := Call.later ctx c s
  refine ⟨fun p content hp => ?_, ?_⟩
  · have hdone := hlater.done p (by rw [phase, cellAt_eq hp])
    rw [hlater.alike.cell?_eq hdone, hp]
  · obtain ⟨events, hlog, hloops⟩ := hlater.loops
    refine ⟨events, hlog, fun name hname => ?_⟩
    obtain ⟨p, hp, hin, hcell⟩ := hloops name hname
    exact ⟨p, hp, by rw [Grid.cell?_of_contains hin, hcell]⟩

def loopBesideDone : Progress where
  grid := ⟨1, 3, #v[#v[⟨.formula 0 .origin 0.0, .pending⟩, ⟨.formula 1 .origin 0.0, .pending⟩,
    ⟨.text "x", .done⟩]], ⟨#[.relative ⟨0, 1⟩, .relative ⟨0, 0⟩]⟩⟩
  depth := 7

theorem call_keepsDone_loop :
    loopBesideDone.grid.cell? ⟨0, 2⟩ = some ⟨.text "x", .done⟩ ∧
      ((Call.ensure ⟨0, 0⟩).run ⟨100, .builtin⟩ loopBesideDone).2.grid.cell? ⟨0, 2⟩ =
        some ⟨.text "x", .done⟩ ∧
      ((Call.ensure ⟨0, 0⟩).run ⟨100, .builtin⟩ loopBesideDone).2.log = #[.cycle "A1"] ∧
      ∃ p, p.name = .ok "A1" ∧
        ((Call.ensure ⟨0, 0⟩).run ⟨100, .builtin⟩ loopBesideDone).2.grid.cell? p =
          some (.ofFault .loop) := by
  have hcell : loopBesideDone.grid.cell? ⟨0, 2⟩ = some ⟨.text "x", .done⟩ := by decide +kernel
  have hlog : ((Call.ensure ⟨0, 0⟩).run ⟨100, .builtin⟩ loopBesideDone).2.log =
      #[.cycle "A1"] := by decide +kernel
  obtain ⟨hkept, events, hevents, hloops⟩ :=
    call_keepsDone ⟨100, .builtin⟩ (.ensure ⟨0, 0⟩) loopBesideDone
  have hfirst : loopBesideDone.log = #[] := rfl
  rw [hlog, hfirst, Array.empty_append] at hevents
  exact ⟨hcell, hkept _ _ hcell, hlog, hloops "A1" (by simp [← hevents])⟩

end Evaluation

end GridCalc
