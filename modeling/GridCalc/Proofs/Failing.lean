import GridCalc.Proofs.Filling

/-!
# How formulas fail

A formula fails with the fault of a cell that it refers to, or of itself: for its functions and
their arguments, for arithmetic that is not defined, for a cell that shows no number and for a
region outside the table. So what holds of formulas, of loops and of the faults that formulas fail
with of themselves holds of all cells after an evaluation if it held of them before.
-/

set_option autoImplicit false

namespace GridCalc

theorem mem_of_foldl {α β : Type} {f : Option (α × β) → α → Option (α × β)}
    (hstep : ∀ best w, ∀ x ∈ f best w, x.1 = w ∨ x ∈ best) {best : Option (α × β)} {ws : List α}
    {x : α × β} (hx : x ∈ ws.foldl f best) : x.1 ∈ ws ∨ x ∈ best := by
  induction ws generalizing best with
  | nil => exact .inr hx
  | cons w ws ih =>
    obtain hmem | hmem := ih hx
    · exact .inl (List.mem_cons_of_mem w hmem)
    · refine (hstep best w x hmem).imp_left fun hw => ?_
      rw [hw]
      exact List.mem_cons_self

theorem mem_of_nearestWord? {word : String} {words : List String} {w : String}
    (h : w ∈ nearestWord? word words) : w ∈ words := by
  unfold nearestWord? at h
  dsimp only at h
  split at h
  · next hfold =>
    split at h
    · cases h
      refine (mem_of_foldl (fun best other x hx => ?_) hfold).resolve_right nofun
      split at hx
      · cases hx
        exact .inl rfl
      · split at hx
        · cases hx
          exact .inl rfl
        · exact .inr hx
    · cases h
  · cases h

theorem Functions.find_error {fs : Functions} {name : String} {f : Fault}
    (h : fs.find name = .error f) : ∃ other, f = .unknownFunction name other ∧
      ∀ w ∈ other, ∃ g ∈ fs, g.name = w := by
  unfold Functions.find at h
  dsimp only at h
  split at h
  · cases h
  · cases h
    refine ⟨_, rfl, fun w hw => ?_⟩
    obtain ⟨g, hg, rfl⟩ := List.mem_map.1 (mem_of_nearestWord? hw)
    exact ⟨g, hg, rfl⟩

/-- The faults that the formulas of an arena fail with of themselves. -/
inductive Fault.Arises (functions : Functions) (a : Arena) : Fault → Prop
  | computed {f : Fault} : f ∈ [divisionByZero, negativeRoot, nonpositiveLogarithm] →
      Arises functions a f
  | textOperand : Arises functions a textOperand
  | separatorOperand : Arises functions a separatorOperand
  | unsettled {p : Position} {name : String} : p.name = .ok name →
      Arises functions a (unsettled name)
  | regionOutside {r : Region} {name : String} : r.name = .ok name →
      Arises functions a (regionOutside name)
  | unknownFunction {id : NodeId} {name : String} {arguments : List NodeId} {f : Fault} :
      a.node? id = some (.call name arguments) → functions.find name = .error f →
      Arises functions a f
  | argumentCount {f : Function} (given : Nat) : f ∈ functions →
      Arises functions a (argumentCount (Text.upper f.name) f.arguments.length given)
  | rangeWanted {f : Function} (index : Nat) : f ∈ functions →
      Arises functions a (rangeWanted index (Text.upper f.name))
  | rangeUnwanted {f : Function} (index : Nat) : f ∈ functions →
      Arises functions a (rangeUnwanted index (Text.upper f.name))

namespace Inquiry

variable {α β : Type} {own : Fault → Prop} {S T : Position → Prop}

/-- Of itself the inquiry ends with no other faults than its own; it may hand on one that it sees
at a position of the given kind. -/
def HandsOn (own : Fault → Prop) (S : Position → Prop) : Inquiry α → Prop
  | done r => ∀ f, r = .error (.fault f) → own f
  | look p next => ∀ c, (next c).HandsOn own S ∨
      S p ∧ ∃ f, c = .error f ∧ next c = done (.error (.fault f))

theorem HandsOn.mono {q : Inquiry α} (h : q.HandsOn own S) (hS : ∀ p, S p → T p) :
    q.HandsOn own T := by
  induction q with
  | done => exact h
  | look p next ih => exact fun c => (h c).imp (ih c) (And.imp_left (hS p))

theorem HandsOn.bind {q : Inquiry α} {f : α → Inquiry β} (h : q.HandsOn own S)
    (hf : ∀ a, (f a).HandsOn own S) : (q >>= f).HandsOn own S := by
  induction q with
  | done r =>
    cases r with
    | ok a => exact hf a
    | error e =>
      rintro f ⟨⟩
      exact h f rfl
  | look p next ih =>
    intro c
    refine (h c).imp (ih c) ?_
    rintro ⟨hp, f', hc, hnext⟩
    refine ⟨hp, f', hc, ?_⟩
    show (next c).bind f = _
    rw [hnext]
    rfl

theorem handsOn_pure (a : α) : (pure a : Inquiry α).HandsOn own S := nofun

theorem handsOn_fault {f : Fault} (hf : own f) : (fault f : Inquiry α).HandsOn own S := by
  rintro _ ⟨⟩
  exact hf

theorem handsOn_breakdown (b : Breakdown) :
    (done (.error (.breakdown b)) : Inquiry α).HandsOn own S := nofun

theorem handsOn_ofBreakdown {x : Except Breakdown α} {f : α → Inquiry β}
    (hf : ∀ a, x = .ok a → (f a).HandsOn own S) : (ofBreakdown x >>= f).HandsOn own S := by
  cases x with
  | ok a => exact hf a rfl
  | error b => exact handsOn_breakdown b

variable {g : Grid} {functions : Functions} {shift : Position}

theorem handsOn_computed {r : Except Stop α} (h : Computed r) :
    (done r).HandsOn (Fault.Arises functions g.arena) S := by
  rintro f rfl
  obtain ⟨b, hb⟩ | ⟨f', hmem, he⟩ := h _ rfl
  · cases hb
  · cases he
    exact .computed hmem

theorem handsOn_reference {p : Position} (hp : S p) :
    (reference p).HandsOn (Fault.Arises functions g.arena) S := by
  intro c
  cases c with
  | error f => exact .inr ⟨hp, f, rfl, rfl⟩
  | clone =>
    exact .inl (handsOn_ofBreakdown fun name hname => handsOn_fault (.unsettled hname))
  | text => exact .inl (handsOn_fault .textOperand)
  | separator => exact .inl (handsOn_fault .separatorOperand)
  | _ => exact .inl (handsOn_pure _)

theorem handsOn_countAsZero (r : Region) (p : Position) (c : Content) :
    (countAsZero r p c).HandsOn own S := by
  unfold countAsZero
  split
  · exact handsOn_ofBreakdown fun _ _ => handsOn_ofBreakdown fun _ _ => handsOn_pure ()
  · exact handsOn_pure ()

theorem handsOn_memberValues (r : Region) (ps : List Position) :
    (memberValues r ps).HandsOn own S := by
  induction ps with
  | nil => exact handsOn_pure []
  | cons p ps ih =>
    intro c
    left
    dsimp only
    split
    · exact ih.bind fun _ => handsOn_pure _
    · exact (handsOn_countAsZero r p c).bind fun _ => ih.bind fun _ => handsOn_pure _

theorem handsOn_regionValues (r : Region) :
    (regionValues g r).HandsOn (Fault.Arises functions g.arena) S := by
  unfold regionValues
  split
  · exact handsOn_memberValues r _
  · exact handsOn_ofBreakdown fun _ hname => handsOn_fault (.regionOutside hname)

theorem handsOn_checkForms {f : Function} (hf : f ∈ functions) (index : Nat)
    (kinds : List ArgumentKind) (ids : List NodeId) :
    (checkForms g (Text.upper f.name) index kinds ids).HandsOn (Fault.Arises functions g.arena)
      S := by
  induction kinds generalizing index ids with
  | nil => exact handsOn_pure ()
  | cons kind kinds ih =>
    cases ids with
    | nil => exact handsOn_pure ()
    | cons id ids =>
      apply handsOn_ofBreakdown
      intro n _
      split
      · exact handsOn_fault (.rangeWanted index hf)
      · split
        · exact handsOn_fault (.rangeUnwanted index hf)
        · exact ih (index + 1) ids

theorem handsOn_checkArguments {f : Function} (hf : f ∈ functions) (arguments : List NodeId) :
    (checkArguments g f arguments).HandsOn (Fault.Arises functions g.arena) S := by
  unfold checkArguments
  split
  · exact handsOn_fault (.argumentCount arguments.length hf)
  · exact handsOn_checkForms hf _ _ _

theorem handsOn_findFunction {id : NodeId} {name : String} {arguments : List NodeId}
    {k : Function → Inquiry α} (hn : g.arena.node? id = some (.call name arguments))
    (hk : ∀ f ∈ functions, (k f).HandsOn (Fault.Arises functions g.arena) S) :
    (findFunction functions name >>= k).HandsOn (Fault.Arises functions g.arena) S := by
  unfold findFunction
  cases hfind : functions.find name with
  | ok f => exact hk f (Functions.mem_of_find hfind)
  | error f =>
    have harises : f.Arises functions g.arena := .unknownFunction hn hfind
    exact handsOn_fault harises

theorem handsOn_argumentValues {part : NodeId → Inquiry Float} {ids : List NodeId}
    (hpart : ∀ i ∈ ids, ¬ g.arena.RegionAt i →
      (part i).HandsOn (Fault.Arises functions g.arena) S) :
    (argumentValues g shift part ids).HandsOn (Fault.Arises functions g.arena) S := by
  induction ids with
  | nil => exact handsOn_pure []
  | cons id ids ih =>
    obtain ⟨hid, hrest⟩ := List.forall_mem_cons.1 hpart
    unfold argumentValues nodeAt Arena.find
    cases hn : g.arena.node? id with
    | none => exact handsOn_breakdown _
    | some n =>
      cases n with
      | region r =>
        exact (handsOn_regionValues _).bind fun _ => (ih hrest).bind fun _ => handsOn_pure _
      | _ =>
        have hnot : ¬ g.arena.RegionAt id := by simp [Arena.RegionAt, hn]
        exact (hid hnot).bind fun _ => (ih hrest).bind fun _ => handsOn_pure _

theorem handsOn_valueWithin {levels : Nat} {id : NodeId} (hsound : g.arena.SoundAt id)
    (hregion : ¬ g.arena.RegionAt id) :
    (valueWithin g functions shift levels id).HandsOn (Fault.Arises functions g.arena)
      (g.Refers id shift) := by
  induction levels generalizing id with
  | zero => exact handsOn_breakdown _
  | succ levels ih =>
    cases hn : g.arena.node? id with
    | none =>
      rw [valueWithin_of_no_node hn]
      exact handsOn_breakdown _
    | some n =>
      have hid := hsound id n (.root id) hn
      -- a part refers to nothing that the whole does not refer to
      have part : ∀ i, g.arena.Part id i → ¬ g.arena.RegionAt i →
          (valueWithin g functions shift levels i).HandsOn (Fault.Arises functions g.arena)
            (g.Refers id shift) := fun i hi hnot =>
        (ih (hsound.part hi) hnot).mono fun _ => .of_part fun _ => hi.trans
      rw [valueWithin_of_node hn]
      cases n with
      | number x => exact handsOn_pure x
      | relative p => exact handsOn_reference (.relative (.root id) hn)
      | absolute p => exact handsOn_reference (.absolute (.root id) hn)
      | region r => exact absurd ⟨r, hn⟩ hregion
      | binary op left right =>
        obtain ⟨-, -, -, hnl, hnr⟩ := hid
        exact (part left (.left hn (.root left)) hnl).bind fun x =>
          (part right (.right hn (.root right)) hnr).bind fun y =>
            handsOn_computed (computed_operator op x y)
      | sign op operand =>
        exact (part operand (.operand hn (.root operand)) hid.2).bind fun _ => handsOn_pure _
      | call name arguments =>
        exact handsOn_findFunction hn fun f hf =>
          (handsOn_checkArguments hf arguments).bind fun _ =>
          (handsOn_argumentValues fun i hi => part i (.argument hn hi (.root i))).bind fun xs =>
          handsOn_computed (computed_rule f.rule xs)

end Inquiry

/-- A property of contents that formulas and loops have, and the faults that the formulas of the
arena fail with of themselves. -/
structure Content.Lasting (functions : Functions) (a : Arena) (P : Content → Prop) : Prop where
  formula : ∀ root shift x, P (.formula root shift x)
  loop : P (.error .loop)
  arises : ∀ f, f.Arises functions a → P (.error f)

/-- The table has that arena, its formulas are rooted in it, and the contents of all cells have the
property. -/
structure Grid.Throughout (a : Arena) (P : Content → Prop) (g : Grid) : Prop where
  arena : g.arena = a
  rooted : g.Rooted
  holds : ∀ p, P (g.content p)

namespace Grid.Throughout

variable {a : Arena} {P : Content → Prop} {g : Grid}

theorem set (hg : g.Throughout a P) (p : Position) {c : Cell} (hroot : c.Rooted a)
    (hc : P c.content) : (g.set p c).Throughout a P := by
  refine ⟨(arena_set g p c).trans hg.arena, hg.rooted.set p (hg.arena ▸ hroot), fun q => ?_⟩
  rw [content]
  obtain hset | hset := cellAt_set_cases g p q c
  · rwa [hset]
  · rw [hset]
    exact hg.holds q

theorem rootedAt (hg : g.Throughout a P) (p : Position) : (g.cellAt p).Rooted a :=
  hg.arena ▸ fun _ _ _ hc => hg.rooted.root hc

theorem soundAt (hg : g.Throughout a P) {p shift : Position} {root : NodeId} {x : Float}
    (hc : g.content p = .formula root shift x) : a.SoundAt root ∧ ¬ a.RegionAt root := by
  obtain ⟨hlt, hregion⟩ := hg.rootedAt p root shift x hc
  have hwell : a.WellFormed := hg.arena ▸ hg.rooted.wellFormed
  exact ⟨hwell.soundAt (.refl a) hlt, hregion⟩

theorem cloned {functions : Functions} (hP : Content.Lasting functions a P)
    (hg : g.Throughout a P) (p : Position) (d : Direction) (offset : Int) :
    P ((g.cellAt p).cloned d offset).content := by
  obtain ⟨_, _, _, -, hsame⟩ | ⟨-, hsame⟩ := (g.cellAt p).cloned_cases d offset
  · rw [hsame]
    exact hP.formula _ _ _
  · rw [hsame]
    exact hg.holds p

end Grid.Throughout

namespace Evaluation
open Grid Inquiry Progress

variable {ask : Position → Evaluation Unit} {functions : Functions} {shift : Position}
  {root : NodeId} {s t : Progress}

/-- A fault that ends a run is the inquiry's own, or that of the cell it has looked at last. -/
theorem run_handsOn (hsettles : Settles ask) {α : Type} {own : Fault → Prop}
    {S : Position → Prop} {q : Inquiry α} {g h : Grid} {r : Except Stop α} (hq : q.Run ask g r h)
    (hands : q.HandsOn own S) {f : Fault} (hr : r = .error (.fault f)) :
    own f ∨ ∃ p, S p ∧ h.content p = .error f := by
  induction hq with
  | done => exact .inl (hands f hr)
  | stopped hs hp =>
    -- what is asked for keeps its faults to itself and stops for other reasons
    cases hr
    exact absurd rfl ((hsettles.settling hp).noFault f)
  | @looked p next g h s t r _ _ hd hrun ih =>
    obtain hnext | ⟨hp, f', hc, hnext⟩ := hands (t.grid.content p)
    · exact ih hnext hr
    · -- nothing comes after this look, so the cell is still as it was seen
      rw [hnext] at hrun
      cases hrun
      cases hr
      exact .inr ⟨p, hp, hc⟩

theorem rootValue_handsOn (hsettles : Settles ask) (hsound : s.grid.arena.SoundAt root)
    (hregion : ¬ s.grid.arena.RegionAt root) {f : Fault}
    (h : rootValue ask functions shift root s = (.error (.fault f), t)) :
    f.Arises functions s.grid.arena ∨
      ∃ p, s.grid.Refers root shift p ∧ t.grid.content p = .error f :=
  run_handsOn hsettles (follows_rootValue hsettles.asks root s _ t (.refl _) h).1
    (handsOn_valueWithin hsound hregion) rfl

section

variable {a : Arena} {P : Content → Prop} {ctx : Context} {p : Position} {r : Except Stop Unit}

def KeepsThroughout (a : Arena) (P : Content → Prop) (s t : Progress) : Prop :=
  s.grid.Throughout a P → t.grid.Throughout a P

theorem passage_throughout (a : Arena) (P : Content → Prop) :
    Passage fun _ => KeepsThroughout a P where
  refl _ _ := id
  trans hs ht h := ht (hs h)
  mono _ h := h
  level h := h
  note _ _ _ _ := id
  mark _ s p phase _ h := by
    rw [grid_mark]
    exact h.set p (h.rootedAt p) (h.holds p)

theorem rootValue_throughout (hP : Content.Lasting functions a P) (hsettles : Settles ask)
    (hsound : a.SoundAt root) (hregion : ¬ a.RegionAt root) {f : Fault}
    (h : rootValue ask functions shift root s = (.error (.fault f), t))
    (ht : t.grid.Throughout a P) : P (.error f) := by
  have hrun := (follows_rootValue hsettles.asks root s _ t (.refl _) h).1
  obtain rfl : s.grid.arena = a := (run_alike hsettles.asks hrun).arena.symm.trans ht.arena
  obtain hown | ⟨p, -, hp⟩ := rootValue_handsOn hsettles hsound hregion h
  · exact hP.arises f hown
  · exact hp ▸ ht.holds p

section

variable (hP : Content.Lasting ctx.functions a P) (hsettles : Settles ask)
  (hask : ∀ p, Passes (KeepsThroughout a P) (ask p))
include hP hsettles hask

theorem settleFormula_throughout {x : Float} (hp : s.grid.phase p = .pending)
    (hc : s.grid.content p = .formula root shift x)
    (h : settleFormula ctx ask p root shift s = (r, t)) : KeepsThroughout a P s t := by
  intro hs
  obtain ⟨hsound, hregion⟩ := hs.soundAt hc
  have hroot := hs.rootedAt p root shift x hc
  have hR := passage_throughout a P
  refine hR.of_settleFormula (n := 0) (passes_rootValue hR hask root)
    (fun _ u v c hv _ hsettled hu => ?_) (by simp [hp]) h hs
  obtain ⟨_, -, rfl⟩ | ⟨f, rfl, rfl⟩ := settledFormula_ok hsettled
  · refine hu.set p ?_ (hP.formula _ _ _)
    rintro _ _ _ ⟨⟩
    exact hroot
  · -- the property holds when the value has been worked out, so the fault has it
    exact hu.set p (Cell.rooted_ofFault a f)
      (rootValue_throughout hP hsettles hsound hregion hv hu)

theorem settleClone_throughout {d : Direction} {offset : Int} (hp : s.grid.phase p = .pending)
    (h : settleClone ctx ask p d offset s = (r, t)) : KeepsThroughout a P s t := by
  refine (passage_throughout a P).of_settleClone (n := 0) (hask _) (fun u phase _ hu => ?_)
    (fun _ _ _ _ _ _ hw hc hrun => settleFormula_throughout hP hsettles hask hw hc hrun)
    (by simp [hp]) h
  exact hu.set p ((hu.rootedAt (p.move d offset)).cloned d offset) (hu.cloned hP _ d offset)

end

theorem settleStep_throughout (hP : Content.Lasting ctx.functions a P)
    {deeper : Option (Position → Evaluation Unit)}
    (hsettles : ∀ ask, deeper = some ask → Settles ask)
    (hask : ∀ ask, deeper = some ask → ∀ p, Passes (KeepsThroughout a P) (ask p)) (p : Position) :
    Passes (KeepsThroughout a P) (settleStep ctx deeper p) := by
  intro s
  rcases h : settleStep ctx deeper p s with ⟨r, t⟩
  cases settleStep_cases h with
  | done => exact id
  | loop => exact fun hs => hs.set p (Cell.rooted_ofFault a _) hP.loop
  | literal hp => exact (passage_throughout a P).mark 0 s p .done (by simp [hp])
  | beyond => exact id
  | unnamed => exact id
  | formula hd hp hc h =>
    exact settleFormula_throughout hP (hsettles _ hd) (hask _ hd) hp hc h
  | clone hd hp _ h => exact settleClone_throughout hP (hsettles _ hd) (hask _ hd) hp h

theorem settleWithin_throughout (hP : Content.Lasting ctx.functions a P) (levels : Nat)
    (p : Position) : Passes (KeepsThroughout a P) (settleWithin ctx levels p) :=
  settleWithin_of_step (P := fun ask => ∀ p, Passes (KeepsThroughout a P) (ask p))
    (fun _ hsettles hask => settleStep_throughout hP hsettles hask) levels p

theorem evaluate_throughout (hP : Content.Lasting ctx.functions a P) :
    Passes (KeepsThroughout a P) (evaluate ctx) := by
  have hR := passage_throughout a P
  refine passes_evaluate (n := 0) hR (passes_restartStep (n := 0) hR ?_ ?_)
  · exact settleWithin_throughout hP ctx.limit
  · exact fun _ _ q _ _ _ hu => hu.set q (Cell.rooted_ofFault a _) hP.loop

end

end Evaluation

end GridCalc
