import GridCalc.Proofs.Calls
import GridCalc.Proofs.Folding
import Mathlib.Data.List.Forall2

/-!
# Watched evaluation

A cell that has been asked for is done when the asking returns, and it is no clone. To say so of
every asking inside of an evaluation, however deep, the evaluation is watched: each time a cell has
been asked for, and each time it is then read as an operand, as a member of a region or as an
argument, an alarm is raised if it is not as it should be. The alarm is a breakdown, which nothing
catches. On a table that has been read, whatever has been called on it, the watched evaluation does
what the plain one does, whichever breakdown the alarm is; so there is never an alarm.
-/

set_option autoImplicit false

namespace GridCalc

/-- What a cell that has been asked for should be: done, and no clone. -/
def Cell.isSettled (c : Cell) : Bool :=
  c.phase == .done && match c.content with
    | .clone .. => false
    | _ => true

namespace Evaluation

section

variable (alarm : Breakdown)

/-- Asks for a cell, and raises the alarm if it is not settled then. -/
def watched (ask : Position → Evaluation Unit) (p : Position) : Evaluation Unit := do
  ask p
  let c ← cellAt p
  if c.isSettled then pure () else Action.breakdown alarm

/-- The number that a cell gives to a formula. There is an alarm for a formula that has not been
worked out, and for a clone. -/
def watchedOperand (c : Cell) : Evaluation Float :=
  match c.content with
  | .number x => pure x
  | .formula _ _ x => if c.phase = .done then pure x else Action.breakdown alarm
  | .empty => pure 0.0
  | .text _ => Action.fault .textOperand
  | .separator => Action.fault .separatorOperand
  | .error f => Action.fault f
  | .clone .. => Action.breakdown alarm

section

variable (ask : Position → Evaluation Unit)

def watchedReference (p : Position) : Evaluation Float := do
  ask p
  let c ← cellAt p
  watchedOperand alarm c

/-- The numbers of cells of a region. A cell that has to be worked out and has no number is not
counted as zero but raises the alarm. -/
def watchedMembers (r : Region) : List Position → Evaluation (List Float)
  | [] => pure []
  | p :: ps => do
    ask p
    let c ← cellAt p
    match c.number? with
    | some x => do
      let xs ← watchedMembers r ps
      pure (x :: xs)
    | none => do
      if c.content.isDeferred then Action.breakdown alarm
      else do
        if !c.content.isEmpty then
          let name ← ofBreakdown p.name
          let region ← ofBreakdown r.name
          note (.countsAsZero name c.content.label region)
        let xs ← watchedMembers r ps
        pure (0.0 :: xs)

def watchedRegion (r : Region) : Evaluation (List Float) := do
  if ← containsRegion r then watchedMembers alarm ask r r.positions
  else do
    let region ← ofBreakdown r.name
    Action.fault (.regionOutside region)

variable (functions : Functions) (shift : Position)

def watchedArguments (part : NodeId → Evaluation Float) :
    List ArgumentKind → List NodeId → Evaluation (List Argument)
  | .range :: kinds, id :: ids => do
    match ← nodeAt id with
    | .region r => do
      let xs ← watchedRegion alarm ask (r.shift shift)
      let rest ← watchedArguments part kinds ids
      pure (.range xs :: rest)
    | _ => Action.breakdown alarm
  | .scalar :: kinds, id :: ids => do
    let x ← part id
    let rest ← watchedArguments part kinds ids
    pure (.scalar x :: rest)
  | _, _ => pure []

def watchedNode (part : Bool → NodeId → Evaluation Float) (chained : Bool) :
    Node → Evaluation Float
  | .number x => nested (pure x)
  | .relative p => nested (watchedReference alarm ask (p.shift shift))
  | .absolute p => nested (watchedReference alarm ask p)
  | .region _ => nested (Action.fault .rangeValue)
  | .binary op left right =>
    let steps : Evaluation Float := do
      let x ← part true left
      let y ← part false right
      Action.ofExcept (op.apply x y)
    if chained then steps else nested steps
  | .sign op operand => nested do
    let x ← part false operand
    pure (op.applySign x)
  | .call name arguments => nested do
    let f ← ofFault (functions.find name)
    checkArguments f arguments
    let xs ← watchedArguments alarm ask shift (part false) f.arguments arguments
    Action.ofExcept (f.rule.apply xs)

def watchedWithin : Nat → Bool → NodeId → Evaluation Float
  | 0, _, _ => Action.breakdown .endlessFormula
  | levels + 1, chained, id => do
    let n ← nodeAt id
    watchedNode alarm ask functions shift (watchedWithin levels) chained n

def watchedValue (root : NodeId) : Evaluation Float := fun s =>
  watchedWithin alarm ask functions shift s.grid.arena.levels false root s

end

def Manner.watched : Manner := ⟨watchedValue alarm, outOfReach⟩

variable (ctx : Context)

/-- Cells are settled under watch, those that are asked for on the way included. A clone becomes
what its source is seen as in the state that the watch has passed. -/
def watchedSettle : Nat → Position → Evaluation Unit
  | 0 => watched alarm (settleStepBy (.watched alarm) ctx none)
  | levels + 1 => watched alarm (settleStepBy (.watched alarm) ctx (some (watchedSettle levels)))

def Call.runWatched : Call → Evaluation Unit
  | evaluate => fun s => ensureAllBy (watchedSettle alarm ctx ctx.limit) s.grid.positions s
  | ensure p => ensureBy (watchedSettle alarm ctx ctx.limit) p
  | value root shift => do
    let _ ← watchedValue alarm (watchedSettle alarm ctx ctx.limit) ctx.functions shift root
    pure ()
  | numbers r => do
    let _ ← watchedRegion alarm (watchedSettle alarm ctx ctx.limit) r
    pure ()

end

open Grid

section

variable {α β : Type} {start : Grid} {s t : Progress} {p : Position}

theorem isSettled_iff {c : Cell} :
    c.isSettled ↔ c.phase = .done ∧ ∀ d offset, c.content ≠ .clone d offset := by
  unfold Cell.isSettled
  cases c.content <;> simp

theorem isSettled_of_done (hs : Kept start s.grid) (hp : s.grid.phase p = .done) :
    (s.grid.cellAt p).isSettled :=
  isSettled_iff.2 ⟨hp, fun _ _ hc => (hs.clone hc).2 hp⟩

def Agrees (start : Grid) (x y : Evaluation α) : Prop :=
  ∀ s, Kept start s.grid → x s = y s ∧ Kept start (y s).2.grid

theorem agrees_still {x : Evaluation α} (h : Still x) : Agrees start x x := fun s hs =>
  ⟨rfl, by rwa [show (x s).2 = s from h s]⟩

theorem agrees_note (e : Event) : Agrees start (note e) (note e) := fun _ hs => ⟨rfl, hs⟩

theorem Agrees.bind {x y : Evaluation α} {f g : α → Evaluation β} (hx : Agrees start x y)
    (hf : ∀ v, Agrees start (f v) (g v)) : Agrees start (x >>= f) (y >>= g) := by
  intro s hs
  obtain ⟨hsame, hkept⟩ := hx s hs
  rcases hy : y s with ⟨r, t⟩
  rw [hy] at hsame hkept
  cases r with
  | ok v =>
    rw [Action.bind_ok hsame, Action.bind_ok hy]
    exact hf v t hkept
  | error e =>
    rw [Action.bind_error hsame, Action.bind_error hy]
    exact ⟨rfl, hkept⟩

theorem Agrees.nested {x y : Evaluation α} (h : Agrees start x y) :
    Agrees start (nested x) (nested y) := by
  intro s hs
  obtain ⟨hsame, hkept⟩ := h s.deeper hs
  exact ⟨congrArg (fun u => (u.1, u.2.shallower)) hsame, hkept⟩

theorem Agrees.congr {x y x' y' : Evaluation α} (h : Agrees start x y)
    (hx : ∀ s : Progress, s.grid.arena = start.arena → x' s = x s)
    (hy : ∀ s : Progress, s.grid.arena = start.arena → y' s = y s) : Agrees start x' y' := by
  intro s hs
  have harena : s.grid.arena = start.arena := hs.alike.arena
  rw [hx s harena, hy s harena]
  exact h s hs

theorem Agrees.nodeAt {f g : Node → Evaluation β} {id : NodeId}
    (h : ∀ n, start.arena.node? id = some n → Agrees start (f n) (g n)) :
    Agrees start (nodeAt id >>= f) (nodeAt id >>= g) := by
  cases hn : start.arena.node? id with
  | some n => exact (h n hn).congr (fun s => nodeAt_bind hn) fun s => nodeAt_bind hn
  | none =>
    exact (agrees_still (still_breakdown (.unknownNode id))).congr (fun s => nodeAt_bind_none hn)
      fun s => nodeAt_bind_none hn

structure Watches (start : Grid) (ask' ask : Position → Evaluation Unit) : Prop where
  same : ∀ {p s}, Kept start s.grid → ask' p s = ask p s
  settles : Settles ask
  changes : MakesChanges ask

variable {ask ask' : Position → Evaluation Unit} {functions : Functions} {shift : Position}
  {alarm : Breakdown}

theorem Watches.agrees (h : Watches start ask' ask) (p : Position) :
    Agrees start (ask' p) (ask p) := fun s hs =>
  ⟨h.same hs, (h.changes (rfl : ask p s = ((ask p s).1, (ask p s).2))).kept hs⟩

/-- What reads a cell that has been asked for needs to agree only on settled ones. -/
theorem Watches.read (h : Watches start ask' ask) {f g : Cell → Evaluation α}
    (hf : ∀ c, c.isSettled → Agrees start (f c) (g c)) (p : Position) :
    Agrees start (do ask' p; let c ← cellAt p; f c) (do ask p; let c ← cellAt p; g c) := by
  intro s hs
  obtain ⟨hsame, hkept⟩ := h.agrees p s hs
  rcases hy : ask p s with ⟨r, t⟩
  rw [hy] at hsame hkept
  cases r with
  | ok v =>
    have hdone := (h.settles.settling hy).done rfl
    rw [Action.bind_ok hsame, Action.bind_ok hy]
    exact hf (t.grid.cellAt p) (isSettled_of_done hkept hdone) t hkept
  | error e =>
    rw [Action.bind_error hsame, Action.bind_error hy]
    exact ⟨rfl, hkept⟩

theorem watched_eq (hsettles : Settles ask) (hchanges : MakesChanges ask)
    (hs : Kept start s.grid) (hsame : ask' p s = ask p s) : watched alarm ask' p s = ask p s := by
  unfold watched
  rcases hy : ask p s with ⟨r, t⟩
  rw [hy] at hsame
  cases r with
  | ok v =>
    have hsettled := isSettled_of_done ((hchanges hy).kept hs) ((hsettles.settling hy).done rfl)
    have hcell : cellAt p t = (.ok (t.grid.cellAt p), t) := rfl
    rw [Action.bind_ok hsame, Action.bind_ok hcell, if_pos hsettled]
    rfl
  | error e => exact Action.bind_error hsame

theorem watchedOperand_agrees {c : Cell} (hc : c.isSettled) (p : Position) :
    Agrees start (watchedOperand alarm c) (operand p c) := by
  obtain ⟨hdone, hclone⟩ := isSettled_iff.1 hc
  have hstill : Agrees start (operand p c) (operand p c) := agrees_still (still_operand p c)
  unfold watchedOperand
  unfold operand at hstill ⊢
  cases hcontent : c.content with
  | clone d offset => exact absurd hcontent (hclone d offset)
  | formula root shift x =>
    rw [hcontent] at hstill
    simpa [hdone] using hstill
  | _ => simpa [hcontent] using hstill

theorem watchedReference_agrees (h : Watches start ask' ask) (p : Position) :
    Agrees start (watchedReference alarm ask' p) (reference ask p) :=
  h.read (fun _ hc => watchedOperand_agrees hc p) p

theorem isDeferred_of_isSettled {c : Cell} (hc : c.isSettled) (hnumber : c.number? = none) :
    c.content.isDeferred = false := by
  obtain ⟨hdone, hclone⟩ := isSettled_iff.1 hc
  unfold Cell.number? at hnumber
  cases hcontent : c.content with
  | clone d offset => exact absurd hcontent (hclone d offset)
  | formula root shift x => simp [hcontent, hdone] at hnumber
  | _ => rfl

theorem watchedMembers_agrees (h : Watches start ask' ask) (r : Region) (ps : List Position) :
    Agrees start (watchedMembers alarm ask' r ps) (memberValues ask r ps) := by
  induction ps with
  | nil => exact agrees_still (still_pure [])
  | cons p ps ih =>
    have hrest : ∀ x : Float, Agrees start
        (do let xs ← watchedMembers alarm ask' r ps; pure (x :: xs))
        (do let xs ← memberValues ask r ps; pure (x :: xs)) :=
      fun x => ih.bind fun xs => agrees_still (still_pure (x :: xs))
    refine h.read (fun c hc => ?_) p
    cases hnumber : c.number? with
    | some x => exact hrest x
    | none =>
      dsimp only
      rw [if_neg (by simp [isDeferred_of_isSettled hc hnumber])]
      split
      · refine (agrees_still (still_ofBreakdown p.name)).bind fun name => ?_
        refine (agrees_still (still_ofBreakdown r.name)).bind fun region => ?_
        exact (agrees_note _).bind fun _ => hrest 0.0
      · exact hrest 0.0

theorem watchedRegion_agrees (h : Watches start ask' ask) (r : Region) :
    Agrees start (watchedRegion alarm ask' r) (regionValues ask r) := by
  refine (agrees_still (still_containsRegion r)).bind fun inside => ?_
  split
  · exact watchedMembers_agrees h r r.positions
  · exact agrees_still ((still_ofBreakdown r.name).bind fun region =>
      still_fault (.regionOutside region))

def Fitting (a : Arena) : List ArgumentKind → List NodeId → Prop :=
  List.Forall₂ fun kind id => ∃ n, a.node? id = some n ∧ (n.isRegion ↔ kind = .range)

theorem checkForms_fitting {name : String} {index : Nat} {kinds : List ArgumentKind}
    {ids : List NodeId} (hlength : ids.length = kinds.length)
    (h : checkForms name index kinds ids s = (.ok (), t)) : Fitting s.grid.arena kinds ids := by
  induction kinds generalizing index ids with
  | nil =>
    obtain rfl := List.length_eq_zero_iff.1 hlength
    exact .nil
  | cons kind kinds ih =>
    cases ids with
    | nil => cases hlength
    | cons id ids =>
      rw [checkForms] at h
      cases hn : s.grid.arena.node? id with
      | none =>
        rw [nodeAt_bind_none hn rfl] at h
        cases h
      | some n =>
        rw [nodeAt_bind hn rfl] at h
        split at h
        · cases h
        · next hrange =>
          split at h
          · cases h
          · next hscalar =>
            refine .cons ⟨n, hn, ?_⟩ (ih (Nat.succ.inj hlength) h)
            cases kind <;> simp_all

theorem checkArguments_fitting {f : Function} {ids : List NodeId}
    (h : checkArguments f ids s = (.ok (), t)) : Fitting s.grid.arena f.arguments ids := by
  unfold checkArguments at h
  split at h
  · cases h
  · next hlength => exact checkForms_fitting (not_not.1 hlength) h

theorem watchedArguments_agrees (h : Watches start ask' ask)
    {part part' : NodeId → Evaluation Float}
    (hpart : ∀ id, Agrees start (part' id) (part id)) {kinds : List ArgumentKind}
    {ids : List NodeId} (hfits : Fitting start.arena kinds ids) :
    Agrees start (watchedArguments alarm ask' shift part' kinds ids)
      (argumentValues ask shift part ids) := by
  induction hfits with
  | nil => exact agrees_still (still_pure [])
  | @cons kind id kinds ids hn _ ih =>
    obtain ⟨n, hn, hkind⟩ := hn
    have hrest : ∀ x : Argument, Agrees start
        (do let rest ← watchedArguments alarm ask' shift part' kinds ids; pure (x :: rest))
        (do let rest ← argumentValues ask shift part ids; pure (x :: rest)) :=
      fun x => ih.bind fun rest => agrees_still (still_pure (x :: rest))
    cases kind with
    | range =>
      obtain ⟨r, rfl⟩ : ∃ r, n = .region r := by
        have := hkind.2 rfl
        cases n <;> simp_all [Node.isRegion]
      have hregion : Agrees start
          (do
            let xs ← watchedRegion alarm ask' (r.shift shift)
            let rest ← watchedArguments alarm ask' shift part' kinds ids
            pure (.range xs :: rest))
          (do
            let xs ← regionValues ask (r.shift shift)
            let rest ← argumentValues ask shift part ids
            pure (.range xs :: rest)) :=
        (watchedRegion_agrees h (r.shift shift)).bind fun xs => hrest (.range xs)
      exact hregion.congr (fun s => nodeAt_bind hn) fun s => nodeAt_bind hn
    | scalar =>
      have hscalar := (hpart id).bind fun x => hrest (.scalar x)
      refine hscalar.congr (fun _ _ => rfl) fun s hs => ?_
      rw [argumentValues, nodeAt_bind hn hs]
      cases n with
      | region r => exact absurd (hkind.1 rfl) nofun
      | _ => rfl

theorem watchedNode_agrees (h : Watches start ask' ask)
    {part part' : Bool → NodeId → Evaluation Float}
    (hpart : ∀ chained id, Agrees start (part' chained id) (part chained id)) (chained : Bool)
    (n : Node) :
    Agrees start (watchedNode alarm ask' functions shift part' chained n)
      (nodeValue ask functions shift part chained n) := by
  cases n with
  | number x => exact (agrees_still (still_pure x)).nested
  | relative p => exact (watchedReference_agrees h _).nested
  | absolute p => exact (watchedReference_agrees h p).nested
  | region r => exact (agrees_still (still_fault .rangeValue)).nested
  | binary op left right =>
    have hsteps := (hpart true left).bind fun x => (hpart false right).bind fun y =>
      agrees_still (still_ofExcept (op.apply x y))
    cases chained with
    | true => exact hsteps
    | false => exact hsteps.nested
  | sign op operand =>
    exact ((hpart false operand).bind fun x => agrees_still (still_pure _)).nested
  | call name arguments =>
    refine Agrees.nested ((agrees_still (still_ofFault (functions.find name))).bind fun f => ?_)
    -- the arguments fit wherever the check of their forms has been passed
    intro s hs
    have hchecked : (checkArguments f arguments s).2 = s := still_checkArguments f arguments s
    rcases hcheck : checkArguments f arguments s with ⟨r, t⟩
    obtain rfl : t = s := by rwa [hcheck] at hchecked
    cases r with
    | ok v =>
      have hfits : Fitting start.arena f.arguments arguments := by
        rw [← show t.grid.arena = start.arena from hs.alike.arena]
        exact checkArguments_fitting hcheck
      rw [Action.bind_ok hcheck, Action.bind_ok hcheck]
      exact ((watchedArguments_agrees h (hpart false) hfits).bind fun xs =>
        agrees_still (still_ofExcept (f.rule.apply xs))) t hs
    | error e =>
      rw [Action.bind_error hcheck, Action.bind_error hcheck]
      exact ⟨rfl, hs⟩

theorem watchedWithin_agrees (h : Watches start ask' ask) (levels : Nat) (chained : Bool)
    (id : NodeId) :
    Agrees start (watchedWithin alarm ask' functions shift levels chained id)
      (valueWithin ask functions shift levels chained id) := by
  induction levels generalizing chained id with
  | zero => exact agrees_still (still_breakdown .endlessFormula)
  | succ levels ih => exact Agrees.nodeAt fun n _ => watchedNode_agrees h ih chained n

theorem watchedValue_agrees (h : Watches start ask' ask) (root : NodeId) :
    Agrees start (watchedValue alarm ask' functions shift root)
      (rootValue ask functions shift root) := fun s =>
  watchedWithin_agrees h s.grid.arena.levels false root s

/-! What is begun is begun on a table that comes from the first one, so a cell is settled in the
same way under watch. -/

variable {ctx : Context}

theorem attempt_congr {x y : Evaluation Unit}
    (h : x (s.mark p .active).deeper = y (s.mark p .active).deeper) :
    attempt p x s = attempt p y s := by
  have hnested : nested x (s.mark p .active) = nested y (s.mark p .active) :=
    congrArg (fun u => (u.1, u.2.shallower)) h
  unfold attempt
  rw [hnested]

theorem kept_mark (hs : Kept start s.grid) (hp : s.grid.phase p = .pending)
    (hc : (s.grid.content p).isDeferred) : Kept start (s.mark p .active).deeper.grid := by
  show Kept start (s.mark p .active).grid
  rw [s.grid_mark]
  exact (Change.begun hp hc).kept hs

theorem watchedFormula_eq (h : Watches start ask' ask) (hs : Kept start s.grid)
    (hp : s.grid.phase p = .pending) (hc : (s.grid.content p).isDeferred) (root : NodeId)
    (shift : Position) :
    settleFormulaBy (.watched alarm) ctx ask' p root shift s =
      settleFormula ctx ask p root shift s := by
  have hvalue : (Manner.watched alarm).value ask' ctx.functions shift root
      (s.mark p .active).deeper =
        Manner.chained.value ask ctx.functions shift root (s.mark p .active).deeper :=
    (watchedValue_agrees h root _ (kept_mark hs hp hc)).1
  show _ = settleFormulaBy .chained ctx ask p root shift s
  refine attempt_congr ?_
  rw [hvalue]

theorem watchedCopy_eq (h : Watches start ask' ask) (hs : Kept start s.grid)
    (hp : s.grid.phase p = .pending) {d : Direction} {offset : Int}
    (hc : s.grid.content p = .clone d offset) {u w : Progress}
    (hrun : ask (p.move d offset) (s.mark p .active).deeper = (.ok (), u))
    (hu : u.grid.phase p = .active) {root : NodeId} {shift : Position} {x : Float}
    (hsource : u.grid.content (p.move d offset) = .formula root shift x)
    (hw : w.grid = u.grid.set p ⟨.formula root (shift.move d.reverse offset) 0.0, .pending⟩) :
    settleFormulaBy (.watched alarm) ctx ask' p root (shift.move d.reverse offset) w =
      settleFormula ctx ask p root (shift.move d.reverse offset) w := by
  -- The copy of a formula is begun on a table to which it has been moved.
  have hbegun : (s.mark p .active).deeper.grid = s.grid.marked p := s.grid_mark p .active
  obtain ⟨hchanges, hcontent⟩ := source_changes h.settles h.changes hp (by rw [hc]; rfl) hbegun hrun
  have hdone := (h.settles.settling hrun).done rfl
  have hin : u.grid.contains p := contains_of_phase (by simp [hu])
  have hmoved : Kept start w.grid :=
    hw ▸ (Change.moved hu ((hcontent hu).trans hc) hdone hsource).kept (hchanges.kept hs)
  have hwait : w.grid.phase p = .pending := by rw [hw, phase_set_self hin]
  have hformula : (w.grid.content p).isDeferred := by
    rw [hw, content_set_self hin]
    rfl
  exact watchedFormula_eq h hmoved hwait hformula root _

theorem watchedClone_eq (h : Watches start ask' ask) (hs : Kept start s.grid)
    (hp : s.grid.phase p = .pending) {d : Direction} {offset : Int}
    (hc : s.grid.content p = .clone d offset) :
    settleCloneBy (.watched alarm) ctx ask' p d offset s = settleClone ctx ask p d offset s := by
  have hdeferred : (s.grid.content p).isDeferred := by rw [hc]; rfl
  have hkept := kept_mark hs hp hdeferred
  refine attempt_congr ?_
  dsimp only
  have hsame := h.same (p := p.move d offset) hkept
  rcases hrun : ask (p.move d offset) (s.mark p .active).deeper with ⟨r, u⟩
  rw [hrun] at hsame
  cases r with
  | error e => rw [Action.bind_error hsame, Action.bind_error hrun]
  | ok v =>
    rw [Action.bind_ok hsame, Action.bind_ok hrun]
    refine Action.bind_congr rfl fun active _ hread => ?_
    cases hread
    split
    · next hu =>
      refine Action.bind_congr rfl fun seen _ hread => ?_
      cases hread
      refine Action.bind_congr rfl fun name v hname => ?_
      obtain rfl : v = u := (still_ofBreakdown _).of_run hname
      refine Action.bind_congr rfl fun source w hsource => ?_
      obtain rfl : w = v := (still_ofBreakdown _).of_run hsource
      refine Action.bind_congr rfl fun _ x hnote => ?_
      cases hnote
      obtain ⟨root, shift, y, hformula, hcopy⟩ | ⟨hnot, hcopy⟩ :=
        (w.grid.cellAt (p.move d offset)).cloned_cases d offset
      · rw [hcopy]
        refine Action.bind_congr rfl fun _ x hput => ?_
        cases hput
        exact watchedCopy_eq h hs hp hc hrun (Progress.isActive_iff.1 hu) hformula rfl
      · rw [hcopy]
        cases hcontent : (w.grid.cellAt (p.move d offset)).content with
        | formula root shift y => exact absurd hcontent (hnot root shift y)
        | _ => rfl
    · rfl

theorem watchedStep_eq {deeper' deeper : Option (Position → Evaluation Unit)}
    (hdeeper : deeper' = none ∧ deeper = none ∨
      ∃ ask' ask, deeper' = some ask' ∧ deeper = some ask ∧ Watches start ask' ask)
    (hs : Kept start s.grid) :
    settleStepBy (.watched alarm) ctx deeper' p s = settleStep ctx deeper p s := by
  show _ = settleStepBy .chained ctx deeper p s
  unfold settleStepBy
  refine Action.bind_congr rfl fun _ _ hget => ?_
  cases hget
  cases hcell : s.grid.cell? p with
  | none => rfl
  | some c =>
    dsimp only
    cases hphase : c.phase with
    | done => rfl
    | active => rfl
    | pending =>
      dsimp only
      obtain rfl := Grid.cellAt_eq hcell
      split_ifs with hliteral hlimit
      · rfl
      · rfl
      · obtain ⟨rfl, rfl⟩ | ⟨ask', ask, rfl, rfl, hwatches⟩ := hdeeper
        · rfl
        · cases hcontent : (s.grid.cellAt p).content with
          | formula root shift x =>
            exact watchedFormula_eq hwatches hs hphase (by rw [content, hcontent]; rfl) root shift
          | clone d offset => exact watchedClone_eq hwatches hs hphase hcontent
          | _ => rfl

theorem watchedSettle_watches (start : Grid) (alarm : Breakdown) (ctx : Context) (levels : Nat) :
    Watches start (watchedSettle alarm ctx levels) (settleWithin ctx levels) := by
  have hwatched : ∀ {levels step}, (∀ {p s}, Kept start s.grid →
      step p s = settleWithin ctx levels p s) →
      Watches start (watched alarm step) (settleWithin ctx levels) := fun {levels step} hstep =>
    ⟨fun hs => watched_eq (settleWithin_settles ctx levels) (settleWithin_changes ctx levels) hs
      (hstep hs), settleWithin_settles ctx levels, settleWithin_changes ctx levels⟩
  induction levels with
  | zero => exact hwatched (watchedStep_eq (.inl ⟨rfl, rfl⟩))
  | succ levels ih => exact hwatched (watchedStep_eq (.inr ⟨_, _, rfl, rfl, ih⟩))

theorem restartStepBy_agrees {settle : Position → Evaluation Unit}
    (h : Watches start settle (settleWithin ctx ctx.limit)) (waiting : List Position) :
    Agrees start (restartStepBy settle waiting) (restartStep ctx waiting) := by
  intro s hs
  refine ⟨?_, (restartStep_changes rfl).kept hs⟩
  cases waiting with
  | nil => rfl
  | cons p rest =>
    show _ = restartStepBy (settleWithin ctx ctx.limit) (p :: rest) s
    unfold restartStepBy
    dsimp only
    rw [h.same hs]

theorem restartBy_agrees {settle : Position → Evaluation Unit}
    (h : Watches start settle (settleWithin ctx ctx.limit)) (n : Nat) (waiting : List Position) :
    Agrees start (restartBy settle n waiting) (restart ctx n waiting) := by
  induction n generalizing waiting with
  | zero => exact agrees_still (still_pure ())
  | succ n ih =>
    cases waiting with
    | nil => exact agrees_still (still_pure ())
    | cons p rest => exact (restartStepBy_agrees h (p :: rest)).bind ih

theorem ensureAllBy_agrees {settle : Position → Evaluation Unit}
    (h : Watches start settle (settleWithin ctx ctx.limit)) (ps : List Position) :
    Agrees start (ensureAllBy settle ps) (ensureAll ctx ps) := by
  induction ps with
  | nil => exact agrees_still (still_pure ())
  | cons p ps ih =>
    have hfirst : Agrees start (ensureBy settle p) (ensure ctx p) := fun s =>
      restartBy_agrees h (restartBound s.grid) [p] s
    exact hfirst.bind fun _ => ih

theorem Call.runWatched_agrees (c : Call) :
    Agrees start (c.runWatched alarm ctx) (c.run ctx) := by
  have hwatches := watchedSettle_watches start alarm ctx ctx.limit
  cases c with
  | evaluate => exact fun s => ensureAllBy_agrees hwatches s.grid.positions s
  | ensure p => exact fun s => restartBy_agrees hwatches (restartBound s.grid) [p] s
  | value root shift =>
    exact (watchedValue_agrees hwatches root).bind fun _ => agrees_still (still_pure ())
  | numbers r =>
    exact (watchedRegion_agrees hwatches r).bind fun _ => agrees_still (still_pure ())

end

/-- Whatever has been called on a table that has been read, a call does the same under watch, with
any alarm. So whenever a cell has been asked for, by the call or on the way, it is done and no
clone; no formula without a value is read, nor counted as zero, nor copied; and ranges are passed to
functions where they want them. For an asking of its own the cell is shown. -/
theorem run_watched {text : String} {g : Grid} {log : Array Event}
    (hread : Grid.ofText text = .ok (g, log)) {s : Progress} (hreached : Reached g s.grid)
    (ctx : Context) :
    (∀ (alarm : Breakdown) (c : Call), c.runWatched alarm ctx s = c.run ctx s) ∧
    ∀ (levels : Nat) (p : Position) (t : Progress), settleWithin ctx levels p s = (.ok (), t) →
      g.contains p → ∃ c, t.grid.cell? p = some ⟨c, .done⟩ ∧ ∀ d offset, c ≠ .clone d offset := by
  have hkept : Kept g s.grid := hreached.changes.kept (fresh_ofText hread).kept
  refine ⟨fun alarm c => (Call.runWatched_agrees c s hkept).1, fun levels p t hrun hp => ?_⟩
  have hdone := ((settleWithin_settles ctx levels).settling hrun).done rfl
  have hafter : Kept g t.grid := (settleWithin_changes ctx levels hrun).kept hkept
  exact ⟨_, cell?_of_done hafter.alike hp hdone, fun d offset hc => (hafter.clone hc).2 hdone⟩

theorem run_watched_afterStop :
    Grid.ofText "=B1|=C1|5" = .ok (twoReferences, #[]) ∧
      (∀ alarm, Call.evaluate.runWatched alarm ⟨1, .builtin⟩ stoppedReferences =
        Call.evaluate.run ⟨1, .builtin⟩ stoppedReferences) ∧
      ∃ c, (settleWithin ⟨1, .builtin⟩ 1 ⟨0, 1⟩ stoppedReferences).2.grid.cell? ⟨0, 1⟩ =
        some ⟨c, .done⟩ ∧ ∀ d offset, c ≠ .clone d offset := by
  have hread : Grid.ofText "=B1|=C1|5" = .ok (twoReferences, #[]) :=
    ok_of_toOption (by decide +kernel)
  have hsettled : (settleWithin ⟨1, .builtin⟩ 1 ⟨0, 1⟩ stoppedReferences).1.toOption = some () := by
    decide +kernel
  have hreached : Reached twoReferences stoppedReferences.grid :=
    Reached.after (s := { grid := twoReferences }) _ _ .start
  obtain ⟨hsame, hcell⟩ := run_watched hread hreached ⟨1, .builtin⟩
  exact ⟨hread, fun alarm => hsame alarm .evaluate,
    hcell 1 ⟨0, 1⟩ _ (Action.eq_ok hsettled) (by decide)⟩

end Evaluation

end GridCalc
