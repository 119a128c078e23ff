import GridCalc.Proofs.Change
import GridCalc.Proofs.Outcome

/-!
# Calls on a table

A table may be asked for its cells in four ways, one after another: all cells, one cell, the value
of a formula or the numbers of a region. Every call has a limit and functions of its own and may be
made at any depth, and one that is stopped leaves what it has done so far. Whatever the calls have
been, the table has only been changed step by step, and an evaluation that succeeds leaves nothing
to do: from then on calls find all cells done and leave them as they are.
-/

set_option autoImplicit false

namespace GridCalc.Evaluation
open GridCalc Grid Inquiry

variable {α β : Type} {ctx : Context} {s t : Progress}

inductive Call where
  | evaluate
  | ensure (p : Position)
  | value (root : NodeId) (shift : Position)
  | numbers (r : Region)

def Call.run (ctx : Context) : Call → Evaluation Unit
  | evaluate => Evaluation.evaluate ctx
  | ensure p => Evaluation.ensure ctx p
  | value root shift => do
    let _ ← formulaValue ctx root shift
    pure ()
  | numbers r => do
    let _ ← numbersIn ctx r
    pure ()

/-- The tables that calls can make of a table, stopped ones included. -/
inductive Reached (start : Grid) : Grid → Prop
  | start : Reached start start
  | call {ctx : Context} {c : Call} {s t : Progress} {r : Except Stop Unit} :
      Reached start s.grid → c.run ctx s = (r, t) → Reached start t.grid

theorem Reached.after {start : Grid} (ctx : Context) (c : Call) (h : Reached start s.grid) :
    Reached start (c.run ctx s).2.grid :=
  .call h rfl

def OnlyChanges (x : Evaluation α) : Prop := ∀ s r t, x s = (r, t) → s.grid.Changes t.grid

theorem OnlyChanges.bind {x : Evaluation α} {f : α → Evaluation β} (hx : OnlyChanges x)
    (hf : ∀ a, OnlyChanges (f a)) : OnlyChanges (x >>= f) := by
  intro s r t h
  rcases hu : x s with ⟨v, u⟩
  cases v with
  | ok a =>
    rw [Action.bind_ok hu] at h
    exact (hx s _ u hu).trans (hf a u r t h)
  | error e =>
    rw [Action.bind_error hu] at h
    cases h
    exact hx s _ _ hu

theorem onlyChanges_pure (a : α) : OnlyChanges (pure a) := by
  intro s r t h
  cases h
  exact .refl _

theorem restart_onlyChanges (ctx : Context) (n : Nat) (waiting : List Position) :
    OnlyChanges (restart ctx n waiting) := by
  induction n generalizing waiting with
  | zero => exact onlyChanges_pure ()
  | succ n ih =>
    cases waiting with
    | nil => exact onlyChanges_pure ()
    | cons p rest => exact OnlyChanges.bind (fun _ _ _ => restartStep_changes) ih

theorem ensure_onlyChanges (ctx : Context) (p : Position) : OnlyChanges (ensure ctx p) :=
  fun s r t h => restart_onlyChanges ctx _ [p] s r t h

theorem ensureAll_onlyChanges (ctx : Context) (ps : List Position) :
    OnlyChanges (ensureAll ctx ps) := by
  induction ps with
  | nil => exact onlyChanges_pure ()
  | cons p ps ih => exact (ensure_onlyChanges ctx p).bind fun _ => ih

theorem onlyChanges_of_follows {x : Evaluation α} {q : Grid → Inquiry α}
    (hx : ∀ g, Follows (settle ctx) g x (q g)) : OnlyChanges x := fun s r t h =>
  run_changes settle_changes (hx s.grid s r t (.refl _) h).1

theorem Call.onlyChanges (ctx : Context) (c : Call) : OnlyChanges (c.run ctx) := by
  have hasks := (settle_settles ctx).asks
  cases c with
  | evaluate => exact fun s r t h => ensureAll_onlyChanges ctx _ s r t h
  | ensure p => exact ensure_onlyChanges ctx p
  | value root shift =>
    exact (onlyChanges_of_follows fun _ => follows_rootValue hasks root).bind
      fun _ => onlyChanges_pure ()
  | numbers r =>
    exact (onlyChanges_of_follows fun _ => follows_regionValues hasks r).bind
      fun _ => onlyChanges_pure ()

theorem Reached.changes {g h : Grid} (hh : Reached g h) : g.Changes h := by
  induction hh with
  | start => exact .refl g
  | call _ hrun ih => exact ih.trans (Call.onlyChanges _ _ _ _ _ hrun)

/-- A computation that leaves a table alone on which all is done, and finds nothing too deep. -/
def RestsWhenDone (x : Evaluation α) : Prop :=
  ∀ s r t, (∀ p, s.grid.phase p = .done) → x s = (r, t) → t.grid = s.grid ∧ Shallow r

theorem RestsWhenDone.bind {x : Evaluation α} {f : α → Evaluation β} (hx : RestsWhenDone x)
    (hf : ∀ a, RestsWhenDone (f a)) : RestsWhenDone (x >>= f) := by
  intro s r t hdone h
  rcases hu : x s with ⟨v, u⟩
  obtain ⟨hsame, hshallow⟩ := hx s v u hdone hu
  cases v with
  | ok a =>
    rw [Action.bind_ok hu] at h
    obtain ⟨hsame', hshallow'⟩ := hf a u r t (hsame ▸ hdone) h
    exact ⟨hsame'.trans hsame, hshallow'⟩
  | error e =>
    rw [Action.bind_error hu] at h
    cases h
    refine ⟨hsame, ?_⟩
    rintro e' ⟨⟩
    exact hshallow e rfl

theorem restsWhenDone_pure (a : α) : RestsWhenDone (pure a) := by
  intro s r t _ h
  cases h
  exact ⟨rfl, shallow_ok a⟩

theorem restartStep_rests (ctx : Context) (waiting : List Position) :
    RestsWhenDone (restartStep ctx waiting) := by
  cases waiting with
  | nil => exact restsWhenDone_pure []
  | cons p rest =>
    intro s r t hdone h
    unfold restartStep restartStepBy at h
    dsimp only at h
    rw [settle_done (hdone p)] at h
    cases h
    exact ⟨rfl, shallow_ok rest⟩

theorem restart_rests (ctx : Context) (n : Nat) (waiting : List Position) :
    RestsWhenDone (restart ctx n waiting) := by
  induction n generalizing waiting with
  | zero => exact restsWhenDone_pure ()
  | succ n ih =>
    cases waiting with
    | nil => exact restsWhenDone_pure ()
    | cons p rest => exact (restartStep_rests ctx (p :: rest)).bind ih

theorem ensureAll_rests (ctx : Context) (ps : List Position) :
    RestsWhenDone (ensureAll ctx ps) := by
  induction ps with
  | nil => exact restsWhenDone_pure ()
  | cons p ps ih =>
    have hfirst : RestsWhenDone (ensure ctx p) :=
      fun s r t hdone h => restart_rests ctx _ [p] s r t hdone h
    exact hfirst.bind fun _ => ih

theorem restsWhenDone_of_follows {x : Evaluation α} {q : Grid → Inquiry α}
    (hx : ∀ g, Follows (settle ctx) g x (q g)) : RestsWhenDone x := by
  intro s r t hdone h
  have hrun := (hx s.grid s r t (.refl _) h).1
  obtain ⟨hsame, _⟩ := run_of_done hdone hrun
  refine ⟨hsame, ?_⟩
  rintro (f | ⟨q, name⟩ | b) rfl
  · exact id
  · have hdeep := (run_orderly (settle_settles ctx) hrun).deep q name rfl
    rw [hsame, hdone q] at hdeep
    cases hdeep
  · exact id

theorem Call.restsWhenDone (ctx : Context) (c : Call) : RestsWhenDone (c.run ctx) := by
  have hasks := (settle_settles ctx).asks
  cases c with
  | evaluate => exact fun s r t hdone h => ensureAll_rests ctx _ s r t hdone h
  | ensure p => exact fun s r t hdone h => restart_rests ctx _ [p] s r t hdone h
  | value root shift =>
    exact (restsWhenDone_of_follows fun _ => follows_rootValue hasks root).bind
      fun _ => restsWhenDone_pure ()
  | numbers r =>
    exact (restsWhenDone_of_follows fun _ => follows_regionValues hasks r).bind
      fun _ => restsWhenDone_pure ()

theorem Reached.eq_of_done {g h : Grid} (hdone : ∀ p, g.phase p = .done) (hh : Reached g h) :
    h = g := by
  induction hh with
  | start => rfl
  | call _ hrun ih => exact (Call.restsWhenDone _ _ _ _ _ (ih ▸ hdone) hrun).1.trans ih

/-- Whatever calls have been made, stopped ones included, an evaluation that succeeds has all cells
done and no clone left; and no call afterwards changes a cell or finds one too deep. -/
theorem evaluate_completes {text : String} {g : Grid} {log : Array Event}
    (hread : Grid.ofText text = .ok (g, log)) (hreached : Reached g s.grid)
    (hrun : evaluate ctx s = (.ok (), t)) :
    (∀ p, g.contains p → ∃ c, t.grid.cell? p = some ⟨c, .done⟩ ∧
      ∀ d offset, c ≠ .clone d offset) ∧
    ∀ (ctx' : Context) (c : Call) (u v : Progress) (r : Except Stop Unit),
      Reached t.grid u.grid → c.run ctx' u = (r, v) →
      v.grid = t.grid ∧ ∀ q name, r ≠ .error (.tooDeep q name) := by
  obtain ⟨hadvance, hdone⟩ := evaluate_done hrun
  have hafter : Reached g t.grid := .call (c := .evaluate) hreached hrun
  have hkept : Kept g t.grid := hafter.changes.kept (fresh_ofText hread).kept
  refine ⟨fun p hp => ⟨_, cell?_of_done hkept.alike hp (hdone p), fun d offset hc => ?_⟩, ?_⟩
  · exact (hkept.clone hc).2 (hdone p)
  · intro ctx' c u v r hu hv
    have hsame := hu.eq_of_done hdone
    obtain ⟨hrest, hshallow⟩ := Call.restsWhenDone ctx' c u r v (hsame ▸ hdone) hv
    exact ⟨hrest.trans hsame, fun q name he => hshallow _ he trivial⟩

def twoReferences : Grid :=
  ⟨1, 3, #v[#v[⟨.formula 0 .origin 0.0, .pending⟩, ⟨.formula 1 .origin 0.0, .pending⟩,
    ⟨.number 5.0, .pending⟩]], ⟨#[.relative ⟨0, 1⟩, .relative ⟨0, 2⟩]⟩⟩

def stoppedReferences : Progress :=
  ((Call.numbers ⟨⟨0, 0⟩, ⟨0, 1⟩⟩).run ⟨1, .builtin⟩ { grid := twoReferences }).2

theorem evaluate_completes_afterStop :
    Grid.ofText "=B1|=C1|5" = .ok (twoReferences, #[]) ∧
      ((Call.numbers ⟨⟨0, 0⟩, ⟨0, 1⟩⟩).run ⟨1, .builtin⟩ { grid := twoReferences }).1 =
        .error (.tooDeep ⟨0, 1⟩ "B1") ∧
      (∃ c, (evaluate ⟨1, .builtin⟩ stoppedReferences).2.grid.cell? ⟨0, 0⟩ = some ⟨c, .done⟩ ∧
        ∀ d offset, c ≠ .clone d offset) ∧
      ((Call.value 0 .origin).run ⟨1, .builtin⟩
        { grid := (evaluate ⟨1, .builtin⟩ stoppedReferences).2.grid }).2.grid =
          (evaluate ⟨1, .builtin⟩ stoppedReferences).2.grid := by
  have hread : Grid.ofText "=B1|=C1|5" = .ok (twoReferences, #[]) :=
    ok_of_toOption (by decide +kernel)
  have hstop : ((Call.numbers ⟨⟨0, 0⟩, ⟨0, 1⟩⟩).run ⟨1, .builtin⟩ { grid := twoReferences }).1 =
      .error (.tooDeep ⟨0, 1⟩ "B1") := by decide +kernel
  have hreturns : (evaluate ⟨1, .builtin⟩ stoppedReferences).1.toOption = some () := by
    decide +kernel
  have hrun := Action.eq_ok hreturns
  generalize (evaluate ⟨1, .builtin⟩ stoppedReferences).2 = t at hrun ⊢
  have hreached : Reached twoReferences stoppedReferences.grid :=
    Reached.after (s := { grid := twoReferences }) _ _ .start
  obtain ⟨hcells, hcalls⟩ := evaluate_completes hread hreached hrun
  exact ⟨hread, hstop, hcells ⟨0, 0⟩ (by decide),
    (hcalls _ (.value 0 .origin) { grid := t.grid } _ _ .start rfl).1⟩

end GridCalc.Evaluation
