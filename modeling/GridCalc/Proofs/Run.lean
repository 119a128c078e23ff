import GridCalc.Proofs.Advance
import GridCalc.Proofs.Meaning

/-!
# Runs of inquiries

How the value of a formula is worked out on a table that changes meanwhile: the computation
carries out the inquiry of the formula, and has each cell settled before it looks at it. Only the
cells that it asks for change the table. Depths and events take no part in what is computed, and
the depth is in the end what it was.
-/

set_option autoImplicit false

namespace GridCalc

def Stop.IsDeep : Stop → Prop
  | .tooDeep .. => True
  | _ => False

/-- A result other than that a cell lies too deep. -/
def Shallow {α : Type} (r : Except Stop α) : Prop := ∀ e, r = .error e → ¬ e.IsDeep

/-- A result of arithmetic, which is without one only for a breakdown or for numbers on which it is
not defined. -/
def Computed {α : Type} (r : Except Stop α) : Prop :=
  ∀ e, r = .error e → (∃ b, e = .breakdown b) ∨
    ∃ f ∈ [Fault.divisionByZero, .negativeRoot, .nonpositiveLogarithm], e = .fault f

section

variable {α β : Type}

theorem computed_ok (a : α) : Computed (.ok a) := nofun

theorem computed_breakdown (b : Breakdown) : Computed (.error (.breakdown b) : Except Stop α) := by
  rintro e ⟨⟩
  exact .inl ⟨b, rfl⟩

theorem computed_fault {f : Fault}
    (hf : f ∈ [Fault.divisionByZero, .negativeRoot, .nonpositiveLogarithm]) :
    Computed (.error (.fault f) : Except Stop α) := by
  rintro e ⟨⟩
  exact .inr ⟨f, hf, rfl⟩

theorem Computed.shallow {r : Except Stop α} (h : Computed r) : Shallow r := by
  intro e he
  obtain ⟨b, rfl⟩ | ⟨f, -, rfl⟩ := h e he
  · exact id
  · exact id

theorem computed_operator (op : Operator) (x y : Float) : Computed (op.apply x y) := by
  cases op with
  | divide =>
    show Computed (if y == 0.0 then _ else _)
    split
    · exact computed_fault (by simp)
    · exact computed_ok _
  | other symbol => exact computed_breakdown _
  | _ => exact computed_ok _

theorem Computed.bind {x : Except Stop α} {f : α → Except Stop β} (hx : Computed x)
    (hf : ∀ a, Computed (f a)) : Computed (x >>= f) := by
  cases x with
  | ok a => exact hf a
  | error e =>
    rintro e' ⟨⟩
    exact hx e rfl

theorem computed_members (a : Argument) : Computed a.members := by
  cases a with
  | scalar x => exact computed_breakdown _
  | range xs => exact computed_ok xs

theorem computed_number (b : Breakdown) (a : Argument) : Computed (a.number b) := by
  cases a with
  | scalar x => exact computed_ok x
  | range xs => exact computed_breakdown b

theorem computed_applyOne (a : Argument) (rule : Rule) : Computed (rule.applyOne a) := by
  cases rule with
  | sum => exact (computed_members a).bind fun xs => computed_ok _
  | average =>
    apply (computed_members a).bind
    intro xs
    split
    · exact computed_breakdown _
    · exact computed_ok _
  | minimum =>
    apply (computed_members a).bind
    intro xs
    split
    · exact computed_ok _
    · exact computed_breakdown _
  | maximum =>
    apply (computed_members a).bind
    intro xs
    split
    · exact computed_ok _
    · exact computed_breakdown _
  | median => exact computed_ok _
  | root =>
    apply (computed_number _ a).bind
    intro x
    split
    · exact computed_fault (by simp)
    · exact computed_ok _
  | logarithm =>
    apply (computed_number _ a).bind
    intro x
    split
    · exact computed_fault (by simp)
    · exact computed_ok _
  | magnitude => exact (computed_number _ a).bind fun x => computed_ok _
  | total => exact computed_ok _

theorem computed_rule (rule : Rule) (arguments : List Argument) :
    Computed (rule.apply arguments) := by
  unfold Rule.apply
  split
  · exact computed_ok _
  · exact computed_applyOne _ rule
  · exact computed_breakdown _

end

namespace Inquiry

/-- The inquiry is carried out on the first table, which becomes the second one: each cell is
asked for and, once it is done, looked at; a cell that cannot be had stops it. -/
inductive Run (ask : Position → Evaluation Unit) {α : Type} :
    Inquiry α → Grid → Except Stop α → Grid → Prop
  | done {r : Except Stop α} {g : Grid} : Shallow r → Run ask (.done r) g r g
  | stopped {p : Position} {next : Content → Inquiry α} {g : Grid} {s t : Progress} {e : Stop} :
      s.grid = g → ask p s = (.error e, t) → Run ask (.look p next) g (.error e) t.grid
  | looked {p : Position} {next : Content → Inquiry α} {g h : Grid} {s t : Progress}
      {r : Except Stop α} : s.grid = g → ask p s = (.ok (), t) → t.grid.phase p = .done →
      Run ask (next (t.grid.content p)) t.grid r h → Run ask (.look p next) g r h

end Inquiry

namespace Evaluation

variable {α β : Type}

def KeepsDepth (x : Evaluation α) : Prop := ∀ s, (x s).2.depth = s.depth

theorem KeepsDepth.depth {x : Evaluation α} {s t : Progress} {r : Except Stop α}
    (hx : KeepsDepth x) (h : x s = (r, t)) : t.depth = s.depth := by
  have hs := hx s
  rwa [h] at hs

structure Asks (ask : Position → Evaluation Unit) : Prop where
  alike : ∀ {p s r t}, ask p s = (r, t) → s.grid.Alike t.grid
  depth : ∀ p, KeepsDepth (ask p)
  done : ∀ {p s t}, ask p s = (.ok (), t) → t.grid.phase p = .done

/-- The computation carries out the inquiry on every state of the table. -/
def Follows (ask : Position → Evaluation Unit) (g : Grid) (x : Evaluation α) (q : Inquiry α) :
    Prop :=
  ∀ s r t, g.Alike s.grid → x s = (r, t) → q.Run ask s.grid r t.grid ∧ t.depth = s.depth

section

variable {ask : Position → Evaluation Unit} {g : Grid}

theorem run_alike (hask : Asks ask) {q : Inquiry α} {i h : Grid} {r : Except Stop α}
    (hq : q.Run ask i r h) : i.Alike h := by
  induction hq with
  | done => exact .refl _
  | stopped hs hp => exact hs ▸ hask.alike hp
  | looked hs hp _ _ ih => exact (hs ▸ hask.alike hp).trans ih

theorem run_bind_ok {q : Inquiry α} {f : α → Inquiry β} {a : α} {i j h : Grid}
    {r : Except Stop β} (hq : q.Run ask i (.ok a) j) (hf : (f a).Run ask j r h) :
    (q >>= f).Run ask i r h := by
  generalize hr : Except.ok a = r' at hq
  induction hq with
  | done => exact hr ▸ hf
  | stopped => cases hr
  | looked hs hp hd _ ih => exact .looked hs hp hd (ih hf hr)

theorem run_bind_error {q : Inquiry α} {f : α → Inquiry β} {e : Stop} {i h : Grid}
    (hq : q.Run ask i (.error e) h) : (q >>= f).Run ask i (.error e) h := by
  generalize hr : Except.error e = r' at hq
  induction hq with
  | done hs =>
    subst hr
    exact .done fun e' he => hs e' (congrArg Except.error (Except.error.inj he))
  | stopped hs hp =>
    cases hr
    exact .stopped hs hp
  | looked hs hp hd _ ih => exact .looked hs hp hd (ih hr)

theorem follows_done {r : Except Stop α} (hr : Shallow r) :
    Follows ask g (Action.ofExcept r) (.done r) := by
  intro s r' t _ h
  cases h
  exact ⟨.done hr, rfl⟩

theorem shallow_ok (a : α) : Shallow (.ok a) := by
  intro e h
  cases h

theorem shallow_fault (f : Fault) : Shallow (.error (.fault f) : Except Stop α) := by
  rintro e ⟨⟩ h
  exact h

theorem shallow_breakdown (b : Breakdown) :
    Shallow (.error (.breakdown b) : Except Stop α) := by
  rintro e ⟨⟩ h
  exact h

theorem follows_pure (a : α) : Follows ask g (pure a) (pure a) := follows_done (shallow_ok a)

theorem follows_fault (f : Fault) :
    Follows ask g (Action.fault f : Evaluation α) (Inquiry.fault f) :=
  follows_done (shallow_fault f)

theorem follows_breakdown (b : Breakdown) :
    Follows ask g (Action.breakdown b : Evaluation α) (Inquiry.ofBreakdown (.error b)) :=
  follows_done (shallow_breakdown b)

theorem follows_ofBreakdown (x : Except Breakdown α) :
    Follows ask g (ofBreakdown x) (Inquiry.ofBreakdown x) := by
  cases x with
  | ok a => exact follows_pure a
  | error b => exact follows_breakdown b

theorem Follows.bind (hask : Asks ask) {x : Evaluation α} {q : Inquiry α}
    {f : α → Evaluation β} {k : α → Inquiry β} (hx : Follows ask g x q)
    (hf : ∀ a, Follows ask g (f a) (k a)) : Follows ask g (x >>= f) (q >>= k) := by
  intro s r t hg h
  rcases hu : x s with ⟨r', u⟩
  obtain ⟨hrun, hdepth⟩ := hx s r' u hg hu
  cases r' with
  | ok a =>
    rw [Action.bind_ok hu] at h
    obtain ⟨hrun', hdepth'⟩ := hf a u r t (hg.trans (run_alike hask hrun)) h
    exact ⟨run_bind_ok hrun hrun', hdepth'.trans hdepth⟩
  | error e =>
    rw [Action.bind_error hu] at h
    cases h
    exact ⟨run_bind_error hrun, hdepth⟩

theorem Follows.nested {x : Evaluation α} {q : Inquiry α} (hx : Follows ask g x q) :
    Follows ask g (nested x) q := by
  intro s r t hg h
  cases h
  obtain ⟨hrun, hdepth⟩ :=
    hx { s with depth := s.depth + 1, deepest := max s.deepest (s.depth + 1) } _ _ hg rfl
  exact ⟨hrun, by simp only [hdepth, Nat.add_sub_cancel]⟩

theorem follows_note (e : Event) : Follows ask g (note e) (pure ()) := by
  intro s r t _ h
  cases h
  exact ⟨.done (shallow_ok ()), rfl⟩

theorem follows_look (hask : Asks ask) {p : Position} {f : Cell → Evaluation α}
    {next : Content → Inquiry α}
    (hf : ∀ c : Cell, c.phase = .done → Follows ask g (f c) (next c.content)) :
    Follows ask g (do ask p; let c ← cellAt p; f c) (.look p next) := by
  intro s r t hg h
  rcases hu : ask p s with ⟨r', u⟩
  cases r' with
  | ok a =>
    rw [Action.bind_ok hu] at h
    have hd := hask.done hu
    obtain ⟨hrun, hdepth⟩ := hf (u.grid.cellAt p) hd u r t (hg.trans (hask.alike hu)) h
    exact ⟨.looked rfl hu hd hrun, hdepth.trans ((hask.depth p).depth hu)⟩
  | error e =>
    rw [Action.bind_error hu] at h
    cases h
    exact ⟨.stopped rfl hu, (hask.depth p).depth hu⟩

theorem follows_nodeAt (id : NodeId) : Follows ask g (nodeAt id) (Inquiry.nodeAt g id) := by
  intro s r t hg h
  unfold nodeAt at h
  rw [hg.arena] at h
  unfold Inquiry.nodeAt
  cases hn : g.arena.find id with
  | ok n =>
    rw [hn] at h
    cases h
    exact ⟨.done (shallow_ok n), rfl⟩
  | error b =>
    rw [hn] at h
    cases h
    exact ⟨.done (shallow_breakdown b), rfl⟩

theorem follows_containsRegion (r : Region) : Follows ask g (containsRegion r)
    (pure (decide (g.contains r.start ∧ g.contains r.finish))) := by
  intro s r' t hg h
  cases h
  have he : decide (s.grid.contains r.start ∧ s.grid.contains r.finish) =
      decide (g.contains r.start ∧ g.contains r.finish) := by
    simp only [hg.contains]
  rw [he]
  exact ⟨.done (shallow_ok _), rfl⟩

theorem follows_operand (p : Position) {c : Cell} (hc : c.phase = .done) :
    Follows ask g (operand p c) (c.content.operand p) := by
  obtain ⟨content, phase⟩ := c
  cases hc
  cases content with
  | clone =>
    intro s r t hg h
    unfold operand at h
    unfold Content.operand
    cases hn : p.name with
    | ok name =>
      rw [hn] at h
      cases h
      exact ⟨.done (shallow_fault _), rfl⟩
    | error b =>
      rw [hn] at h
      cases h
      exact ⟨.done (shallow_breakdown b), rfl⟩
  | number x => exact follows_pure x
  | formula root shift x => exact follows_pure x
  | empty => exact follows_pure _
  | text => exact follows_fault _
  | separator => exact follows_fault _
  | error f => exact follows_fault f

theorem follows_reference (hask : Asks ask) (p : Position) :
    Follows ask g (reference ask p) (Inquiry.reference p) :=
  follows_look hask fun _ hc => follows_operand p hc

theorem number?_of_done {c : Cell} (hc : c.phase = .done) : c.number? = c.content.number? := by
  obtain ⟨content, phase⟩ := c
  cases hc
  cases content <;> rfl

theorem follows_memberValues (hask : Asks ask) (r : Region) (ps : List Position) :
    Follows ask g (memberValues ask r ps) (Inquiry.memberValues r ps) := by
  induction ps with
  | nil => exact follows_pure []
  | cons p ps ih =>
    apply follows_look hask
    intro c hc
    rw [number?_of_done hc]
    cases c.content.number? with
    | some x => exact ih.bind hask fun xs => follows_pure _
    | none =>
      have hrest : Follows ask g (do let xs ← memberValues ask r ps; pure (0.0 :: xs))
          (do let xs ← Inquiry.memberValues r ps; pure (0.0 :: xs)) :=
        ih.bind hask fun xs => follows_pure _
      unfold Inquiry.countAsZero
      dsimp only
      by_cases he : c.content.isEmpty
      · rw [if_neg (by simp [he]), if_neg (by simp [he])]
        exact hrest
      · rw [if_pos (by simp [he]), if_pos (by simp [he]), Inquiry.bind_assoc]
        apply (follows_ofBreakdown p.name).bind hask
        intro name
        rw [Inquiry.bind_assoc]
        apply (follows_ofBreakdown r.name).bind hask
        intro region
        exact (follows_note _).bind hask fun _ => hrest

theorem follows_regionValues (hask : Asks ask) (r : Region) :
    Follows ask g (regionValues ask r) (Inquiry.regionValues g r) := by
  have h : Inquiry.regionValues g r =
      (pure (decide (g.contains r.start ∧ g.contains r.finish)) : Inquiry Bool) >>= fun inside =>
        if inside then Inquiry.memberValues r r.positions
        else Inquiry.ofBreakdown r.name >>= fun region =>
          Inquiry.fault (.regionOutside region) := by
    show _ = if decide (g.contains r.start ∧ g.contains r.finish) = true then _ else _
    simp only [decide_eq_true_eq]
    rfl
  rw [h]
  apply (follows_containsRegion r).bind hask
  intro inside
  split
  · exact follows_memberValues hask r r.positions
  · exact (follows_ofBreakdown r.name).bind hask fun region => follows_fault _

theorem follows_checkForms (hask : Asks ask) (name : String) (index : Nat)
    (kinds : List ArgumentKind) (ids : List NodeId) :
    Follows ask g (checkForms name index kinds ids)
      (Inquiry.checkForms g name index kinds ids) := by
  induction kinds generalizing index ids with
  | nil => exact follows_pure ()
  | cons kind kinds ih =>
    cases ids with
    | nil => exact follows_pure ()
    | cons id ids =>
      apply (follows_nodeAt id).bind hask
      intro n
      split
      · exact follows_fault _
      · split
        · exact follows_fault _
        · exact ih (index + 1) ids

theorem follows_checkArguments (hask : Asks ask) (f : Function) (arguments : List NodeId) :
    Follows ask g (checkArguments f arguments) (Inquiry.checkArguments g f arguments) := by
  unfold checkArguments Inquiry.checkArguments
  dsimp only
  split
  · exact follows_fault _
  · exact follows_checkForms hask _ _ _ _

theorem follows_argumentValues (hask : Asks ask) {shift : Position}
    {part : NodeId → Evaluation Float} {part' : NodeId → Inquiry Float}
    (hpart : ∀ id, Follows ask g (part id) (part' id)) (ids : List NodeId) :
    Follows ask g (argumentValues ask shift part ids)
      (Inquiry.argumentValues g shift part' ids) := by
  induction ids with
  | nil => exact follows_pure []
  | cons id ids ih =>
    apply (follows_nodeAt id).bind hask
    intro n
    cases n with
    | region r =>
      exact (follows_regionValues hask _).bind hask fun xs =>
        ih.bind hask fun rest => follows_pure _
    | _ =>
      exact (hpart id).bind hask fun x => ih.bind hask fun rest => follows_pure _

theorem follows_findFunction (functions : Functions) (name : String) :
    Follows ask g (ofFault (functions.find name)) (Inquiry.findFunction functions name) := by
  unfold Inquiry.findFunction
  cases functions.find name with
  | ok f => exact follows_pure f
  | error f => exact follows_fault f

theorem follows_nodeValue (hask : Asks ask) {functions : Functions} {shift : Position}
    {part : Bool → NodeId → Evaluation Float} {part' : NodeId → Inquiry Float}
    (hpart : ∀ chained id, Follows ask g (part chained id) (part' id)) (chained : Bool)
    (n : Node) : Follows ask g (nodeValue ask functions shift part chained n)
      (Inquiry.nodeValue g functions shift part' n) := by
  cases n with
  | number x => exact (follows_pure x).nested
  | relative p => exact (follows_reference hask _).nested
  | absolute p => exact (follows_reference hask p).nested
  | region r => exact (follows_fault .rangeValue).nested
  | binary op left right =>
    have hsteps : Follows ask g (do
        let x ← part true left
        let y ← part false right
        Action.ofExcept (op.apply x y)) (do
        let x ← part' left
        let y ← part' right
        Inquiry.done (op.apply x y)) :=
      (hpart true left).bind hask fun x => (hpart false right).bind hask fun y =>
        follows_done (computed_operator op x y).shallow
    unfold nodeValue
    dsimp only
    split
    · exact hsteps
    · exact hsteps.nested
  | sign op operand =>
    exact ((hpart false operand).bind hask fun x => follows_pure _).nested
  | call name arguments =>
    unfold nodeValue Inquiry.nodeValue
    dsimp only
    apply Follows.nested
    apply (follows_findFunction functions name).bind hask
    intro f
    apply (follows_checkArguments hask f arguments).bind hask
    intro _
    apply (follows_argumentValues hask (hpart false) arguments).bind hask
    intro xs
    exact follows_done (computed_rule f.rule xs).shallow

theorem follows_valueWithin (hask : Asks ask) {functions : Functions} {shift : Position}
    (levels : Nat) (chained : Bool) (id : NodeId) :
    Follows ask g (valueWithin ask functions shift levels chained id)
      (Inquiry.valueWithin g functions shift levels id) := by
  induction levels generalizing chained id with
  | zero => exact follows_breakdown _
  | succ levels ih =>
    apply (follows_nodeAt id).bind hask
    intro n
    exact follows_nodeValue hask ih chained n

theorem follows_rootValue (hask : Asks ask) {functions : Functions} {shift : Position}
    (root : NodeId) : Follows ask g (rootValue ask functions shift root)
      (Inquiry.formulaValue g functions shift root) := by
  intro s r t hg h
  unfold rootValue at h
  rw [hg.arena] at h
  exact follows_valueWithin hask _ _ _ s r t hg h

end

end Evaluation

end GridCalc
