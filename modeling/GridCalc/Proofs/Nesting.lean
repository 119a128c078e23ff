import GridCalc.Proofs.Displacement
import GridCalc.Proofs.Passage

/-!
# How deep evaluations are nested

The limit is looked at only when a formula or a clone is begun, so the depth may exceed it by what
one cell needs by itself. A formula that has been parsed is nested no further than the grammar lets
it: each of its levels of brackets, calls and signs takes at most three, one for a sum, one for a
product and one for what stands around it. Where no level is left nothing is begun, so a table that
has been read is never worked out deeper than one formula and one clone beyond the limit; and
however a call ends, it ends at the depth where it began.
-/

set_option autoImplicit false

namespace GridCalc

open Formula

theorem Formula.Arguments.mem {argument : Phrase} {ts : List Token} {trees : List Tree}
    (h : Arguments argument ts trees) : ∀ t ∈ trees, ∃ us, argument us t := by
  induction h with
  | last ht _ => simpa using ⟨_, ht⟩
  | next ht _ _ ih => exact List.forall_mem_cons.2 ⟨⟨_, ht⟩, ih⟩

theorem Cell.content_cloned {c : Cell} {d : Direction} {offset : Int} {root : NodeId}
    {shift : Position} {x : Float} (h : (c.cloned d offset).content = .formula root shift x) :
    ∃ shift' x', c.content = .formula root shift' x' := by
  obtain ⟨_, shift', x', hc, hsame⟩ | ⟨hne, hsame⟩ := c.cloned_cases d offset
  · rw [hsame] at h
    cases h
    exact ⟨shift', x', hc⟩
  · exact absurd (hsame ▸ h) (hne root shift x)

def Arena.Written (a : Arena) (root : NodeId) : Prop :=
  ∃ here tokens t, Writes here tokens t ∧ a.Spells root t

structure Grid.Written (a : Arena) (g : Grid) : Prop where
  arena : g.arena = a
  root : ∀ p root shift x, g.content p = .formula root shift x → a.Written root

theorem Grid.Written.set {a : Arena} {g : Grid} (hg : g.Written a) (p : Position) {c : Cell}
    (hc : ∀ root shift x, c.content = .formula root shift x → a.Written root) :
    (g.set p c).Written a := by
  refine ⟨(arena_set g p c).trans hg.arena, fun q root shift x hq => ?_⟩
  rw [content] at hq
  obtain hset | hset := cellAt_set_cases g p q c
  · exact hc root shift x (hset ▸ hq)
  · rw [hset] at hq
    exact hg.root q root shift x hq

namespace Progress

theorem deepest_mark (s : Progress) (p : Position) (phase : Phase) :
    (s.mark p phase).deepest = s.deepest := by
  unfold mark
  split <;> rfl

/-- The second state is at the same depth, and no more than `n` levels beyond the first, or the
bound, have been needed in between. Tables that have the property keep it. -/
def Deepens (I : Grid → Prop) (bound n : Nat) (s t : Progress) : Prop :=
  I s.grid → I t.grid ∧ t.depth = s.depth ∧
    t.deepest ≤ max s.deepest (max (s.depth + n) bound)

end Progress

namespace Evaluation
open Grid Progress

variable {I : Grid → Prop} {bound n : Nat} {a : Arena}

theorem passage_deepens (bound : Nat)
    (hmark : ∀ g p phase, I g → I (g.set p { g.cellAt p with phase })) :
    Passage (Deepens I bound) where
  refl n s hs := ⟨hs, rfl, Nat.le_max_left _ _⟩
  trans {n s t u} ht hu hs := by
    obtain ⟨hit, hdt, hmt⟩ := ht hs
    obtain ⟨hiu, hdu, hmu⟩ := hu hit
    exact ⟨hiu, hdu.trans hdt, by omega⟩
  mono {m n s t} hmn h hs := by
    obtain ⟨hi, hd, hm⟩ := h hs
    exact ⟨hi, hd, by omega⟩
  level {n s t} h hs := by
    obtain ⟨hi, hd, hm⟩ := h hs
    simp only [deeper, shallower] at *
    exact ⟨hi, by omega, by omega⟩
  note n s e _ hs := ⟨hs, rfl, Nat.le_max_left _ _⟩
  mark n s p phase _ hs := by
    rw [grid_mark, depth_mark, deepest_mark]
    exact ⟨hmark s.grid p phase hs, rfl, Nat.le_max_left _ _⟩

theorem deepens_put {s : Progress} {p : Position} {c : Cell} (h : I s.grid → I (s.grid.set p c)) :
    Deepens I bound n s (s.put p c) := fun hs => ⟨h hs, rfl, Nat.le_max_left _ _⟩

section

variable {ask : Position → Evaluation Unit} {functions : Functions} {shift : Position} {id : NodeId}

/-- The formula at a place takes at most `n` levels. -/
def Takes (I : Grid → Prop) (bound : Nat) (ask : Position → Evaluation Unit)
    (functions : Functions) (shift : Position) (n : Nat) (chained : Bool) (id : NodeId) : Prop :=
  ∀ levels, Passes (Deepens I bound n) (valueWithin ask functions shift levels chained id)

def Phrase.Takes (a : Arena) (I : Grid → Prop) (bound : Nat) (ask : Position → Evaluation Unit)
    (functions : Functions) (shift : Position) (n : Nat) (phrase : Phrase) : Prop :=
  ∀ {ts t id}, phrase ts t → a.Spells id t →
    ∀ chained, Evaluation.Takes I bound ask functions shift n chained id

variable (hI : ∀ g, I g → g.arena = a) (hR : Passage (Deepens I bound))
  (hask : ∀ n p, Passes (Deepens I bound n) (ask p))

include hI hR in
theorem takes_of_node {node : Node} {chained : Bool} (hn : a.node? id = some node)
    (h : ∀ levels, Passes (Deepens I bound n)
      (nodeValue ask functions shift (valueWithin ask functions shift levels) chained node)) :
    Takes I bound ask functions shift n chained id := by
  intro levels
  cases levels with
  | zero => exact (still_breakdown .endlessFormula).passes hR
  | succ levels =>
    intro s hs
    have hfind : nodeAt id s = (.ok node, s) := by
      unfold nodeAt
      rw [hI s.grid hs, Arena.find, hn]
    have hvalue := h levels s hs
    unfold valueWithin
    rwa [Action.bind_ok hfind]

include hI hR hask in
theorem takes_of_children {node : Node} (hn : a.node? id = some node)
    (h : ∀ chained, ∀ i ∈ node.children, Takes I bound ask functions shift n chained i)
    (chained : Bool) : Takes I bound ask functions shift (n + 1) chained id :=
  takes_of_node hI hR hn fun levels =>
    passes_nodeValue hR (hask n) (fun c i hi => h c i hi levels) chained

include hI hR hask in
theorem takes_leaf {node : Node} (hn : a.node? id = some node) (hleaf : node.children = [])
    (chained : Bool) : Takes I bound ask functions shift (n + 1) chained id :=
  takes_of_children hI hR hask hn (fun _ i hi => by simp [hleaf] at hi) chained

include hI hR in
theorem Chain.takes {operand : Phrase} {symbols : List String}
    (h : Phrase.Takes a I bound ask functions shift n operand) {ts : List Token} {t : Tree}
    (ht : Chain operand symbols ts t) (hid : a.Spells id t) :
    Takes I bound ask functions shift n true id ∧
      Takes I bound ask functions shift (n + 1) false id := by
  -- along the chain the left operand is asked for as one, so it stays at the same level
  induction ht generalizing id with
  | operand ho => exact ⟨h ho hid true, fun levels => (h ho hid false levels).mono hR (by omega)⟩
  | more _ _ _ hright ih =>
    cases hid with
    | binary hn _ _ hl hr =>
      have hleft := (ih hl).1
      have hright := h hright hr false
      exact ⟨takes_of_node hI hR hn fun levels => passes_chained hR (hleft levels) (hright levels),
        takes_of_node hI hR hn fun levels => passes_binary hR (hleft levels) (hright levels)⟩

include hI hR in
theorem Chain.takesOneMore {operand : Phrase} {symbols : List String}
    (h : Phrase.Takes a I bound ask functions shift n operand) :
    Phrase.Takes a I bound ask functions shift (n + 1) (Chain operand symbols) := by
  intro ts t id ht hid chained
  obtain ⟨hchained, hloose⟩ := Chain.takes hI hR h ht hid
  cases chained with
  | true => exact fun levels => (hchained levels).mono hR (by omega)
  | false => exact hloose

include hI hR in
theorem Sum.takes {unary : Phrase} (h : Phrase.Takes a I bound ask functions shift n unary) :
    Phrase.Takes a I bound ask functions shift (n + 2) (Sum unary) :=
  Chain.takesOneMore hI hR (Chain.takesOneMore hI hR h)

include hI hR hask in
theorem Argument.takes {here : Position} {inner : Phrase}
    (h : Phrase.Takes a I bound ask functions shift n inner) :
    Phrase.Takes a I bound ask functions shift (n + 2) (Formula.Argument here (Sum inner)) := by
  intro ts t id ht hid
  cases ht with
  | whole hs => exact Sum.takes hI hR h hs hid
  | region =>
    cases hid with
    | region hn => exact takes_leaf hI hR hask hn rfl

include hI hR hask in
/-- One level further in the grammar takes three levels more. -/
theorem UnaryAt.takes {here : Position} {level : Option Phrase} {m : Nat} (hm : 1 ≤ m)
    (h : ∀ inner, level = some inner →
      n + 3 ≤ m ∧ Phrase.Takes a I bound ask functions shift n inner) :
    Phrase.Takes a I bound ask functions shift m (UnaryAt here level) := by
  have hleaf : ∀ {id node}, a.node? id = some node → node.children = [] →
      ∀ c, Takes I bound ask functions shift m c id := fun hn hnone c levels =>
    (takes_leaf hI hR hask hn hnone c levels).mono hR hm
  intro ts t id ht hid
  cases ht with
  | number =>
    cases hid with
    | number hn => exact hleaf hn rfl
  | relative =>
    cases hid with
    | relative hn => exact hleaf hn rfl
  | absolute =>
    cases hid with
    | absolute hn => exact hleaf hn rfl
  | sign hl _ _ hoperand =>
    obtain ⟨hle, hinner⟩ := h _ hl
    cases hid with
    | sign hn _ ho =>
      have hsign := takes_of_children hI hR hask hn fun c i hi => by
        obtain rfl := List.mem_singleton.1 hi
        exact hinner hoperand ho c
      exact fun c levels => (hsign c levels).mono hR (by omega)
  | bracket hl _ _ hs =>
    obtain ⟨hle, hinner⟩ := h _ hl
    exact fun c levels => (Sum.takes hI hR hinner hs hid c levels).mono hR (by omega)
  | call hl _ _ harguments =>
    obtain ⟨hle, hinner⟩ := h _ hl
    cases hid with
    | call hn _ hlength hspells =>
      have hcall := takes_of_children hI hR hask hn fun c i hi => by
        rw [Node.children, ← List.map_fst_zip (Nat.le_of_eq hlength)] at hi
        obtain ⟨x, hx, rfl⟩ := List.mem_map.1 hi
        obtain ⟨us, harg⟩ := harguments.mem x.2 (List.of_mem_zip hx).2
        exact Argument.takes hI hR hask hinner harg (hspells x hx) c
      exact fun c levels => (hcall c levels).mono hR (by omega)

include hI hR hask in
theorem Unary.takes (here : Position) (m : Nat) :
    Phrase.Takes a I bound ask functions shift (3 * m + 1) (Unary here m) := by
  induction m with
  | zero => exact UnaryAt.takes (n := 0) hI hR hask (by omega) (by simp)
  | succ m ih =>
    apply UnaryAt.takes (n := 3 * m + 1) hI hR hask (by omega)
    rintro inner ⟨⟩
    exact ⟨by omega, ih⟩

include hI hR hask in
theorem takes_written {root : NodeId} (h : a.Written root) (chained : Bool) :
    Takes I bound ask functions shift 195 chained root := by
  obtain ⟨here, tokens, t, ht, hroot⟩ := h
  exact Sum.takes hI hR (Unary.takes hI hR hask here maxLevels) ht hroot chained

end

section

variable {ctx : Context} {ask : Position → Evaluation Unit} {p : Position} {s t : Progress}
  {r : Except Stop Unit}

theorem passage_written (a : Arena) (bound : Nat) : Passage (Deepens (Grid.Written a) bound) :=
  passage_deepens bound fun _ p _ hg => hg.set p (hg.root p)

section

variable (hask : ∀ n p, Passes (Deepens (Grid.Written a) bound n) (ask p))
include hask

theorem settleFormula_deepens {root : NodeId} {shift : Position} {x : Float}
    (hp : s.grid.phase p = .pending) (hc : s.grid.content p = .formula root shift x)
    (h : settleFormula ctx ask p root shift s = (r, t)) :
    Deepens (Grid.Written a) bound 196 s t := by
  intro hs
  have hroot := hs.root p root shift x hc
  have hR := passage_written a bound
  have hvalue : Passes (Deepens (Grid.Written a) bound 195)
      (rootValue ask ctx.functions shift root) := fun s =>
    takes_written (fun _ hg => hg.arena) hR hask hroot false _ s
  refine hR.of_settleFormula hvalue (fun _ u v c _ _ hsettled => ?_) (by simp [hp]) h hs
  refine deepens_put fun hu => hu.set p fun root' shift' y hformula => ?_
  obtain ⟨_, -, rfl⟩ | ⟨f, -, rfl⟩ := settledFormula_ok hsettled
  · cases hformula
    exact hroot
  · cases hformula

theorem settleClone_deepens {d : Direction} {offset : Int} (hp : s.grid.phase p = .pending)
    (h : settleClone ctx ask p d offset s = (r, t)) : Deepens (Grid.Written a) bound 197 s t := by
  refine (passage_written a bound).of_settleClone (hask 196 _) (fun u phase _ => ?_)
    (fun w root shift x _ _ => settleFormula_deepens hask) (by simp [hp]) h
  refine deepens_put fun hu => hu.set p fun root shift x hc => ?_
  obtain ⟨shift', x', hsource⟩ := Cell.content_cloned hc
  exact hu.root _ root shift' x' hsource

end

theorem settleStep_deepens {deeper : Option (Position → Evaluation Unit)}
    (hask : ∀ ask, deeper = some ask →
      ∀ n p, Passes (Deepens (Grid.Written a) (ctx.limit + 196) n) (ask p)) (n : Nat)
    (p : Position) :
    Passes (Deepens (Grid.Written a) (ctx.limit + 196) n) (settleStep ctx deeper p) := by
  -- The levels that one cell needs are counted from below the limit.
  intro s
  have hR := passage_written a (ctx.limit + 196)
  rcases h : settleStep ctx deeper p s with ⟨r, t⟩
  cases settleStep_cases h with
  | done => exact hR.refl n s
  | @loop name =>
    exact deepens_put (s := s.note (.cycle name)) fun hu => hu.set p (by simp [Cell.ofFault])
  | literal hp => exact hR.mark n s p .done (by simp [hp])
  | beyond => exact hR.refl n s
  | unnamed => exact hR.refl n s
  | formula ha hp hc h hlimit =>
    -- 196 levels from below the limit are no more than 196 beyond it
    intro hs
    obtain ⟨hw, hd, hm⟩ := settleFormula_deepens (hask _ ha) hp hc h hs
    exact ⟨hw, hd, show t.deepest ≤ _ by omega⟩
  | clone ha hp _ h hlimit =>
    intro hs
    obtain ⟨hw, hd, hm⟩ := settleClone_deepens (hask _ ha) hp h hs
    exact ⟨hw, hd, show t.deepest ≤ _ by omega⟩

theorem settleWithin_deepens (a : Arena) (ctx : Context) (levels n : Nat) (p : Position) :
    Passes (Deepens (Grid.Written a) (ctx.limit + 196) n) (settleWithin ctx levels p) :=
  settleWithin_of_step
    (P := fun ask => ∀ n p, Passes (Deepens (Grid.Written a) (ctx.limit + 196) n) (ask p))
    (fun _ _ hask => settleStep_deepens hask) levels n p

theorem restartStep_deepens (a : Arena) (ctx : Context) (waiting : List Position) :
    Passes (Deepens (Grid.Written a) (ctx.limit + 196) 0) (restartStep ctx waiting) :=
  passes_restartStep (passage_written a _) (settleWithin_deepens a ctx ctx.limit 0)
    (fun _ _ q _ _ _ => deepens_put fun hu => hu.set q (by simp [Cell.ofFault])) waiting

end

/-- The states of an evaluation that has been asked for cells, one after another or all at once,
with the same limit all the time. A request that has been stopped may be followed by others. -/
inductive Asked (ctx : Context) (g : Grid) : Progress → Prop
  | start : Asked ctx g { grid := g }
  | evaluate {s : Progress} : Asked ctx g s → Asked ctx g (evaluate ctx s).2
  | ensure {s : Progress} (p : Position) : Asked ctx g s → Asked ctx g (ensure ctx p s).2

theorem written_ofText {text : String} {g : Grid} {log : Array Event}
    (hread : Grid.ofText text = .ok (g, log)) : g.Written g.arena := by
  refine ⟨rfl, fun p root shift x hc => ?_⟩
  obtain ⟨formula, c, b, -, hparse, hgrows⟩ := (FormulaAt.own hc).written hread
  obtain ⟨tokens, t, -, hwrites, hspells, -⟩ := Formula.parse_ok hparse
  exact ⟨_, tokens, t, hwrites, hspells.grows hgrows⟩

theorem Asked.deepens {ctx : Context} {g : Grid} {s : Progress} (hg : g.Written g.arena)
    (h : Asked ctx g s) :
    s.grid.Written g.arena ∧ s.depth = 0 ∧ s.deepest ≤ ctx.limit + 196 := by
  have hR := passage_written g.arena (ctx.limit + 196)
  have hstep := restartStep_deepens g.arena ctx
  have hafter : ∀ {s t : Progress}, Deepens (Grid.Written g.arena) (ctx.limit + 196) 0 s t →
      s.grid.Written g.arena ∧ s.depth = 0 ∧ s.deepest ≤ ctx.limit + 196 →
      t.grid.Written g.arena ∧ t.depth = 0 ∧ t.deepest ≤ ctx.limit + 196 := by
    rintro s t hst ⟨hs, hdepth, hdeepest⟩
    obtain ⟨ht, hdepth', hdeepest'⟩ := hst hs
    exact ⟨ht, hdepth'.trans hdepth, by omega⟩
  induction h with
  | start => exact ⟨hg, rfl, Nat.zero_le _⟩
  | @evaluate s _ ih => exact hafter (passes_evaluate hR hstep s) ih
  | @ensure s p _ ih => exact hafter (passes_ensure hR hstep p s) ih

/-- If a table is read and then asked for cells, it is never more than 196 levels deeper than the
limit, and no level is left when a request has ended. Of these a formula that has been parsed takes
at most 195 by itself. -/
theorem depth_isBounded :
    (∀ {text : String} {g : Grid} {log : Array Event}, Grid.ofText text = .ok (g, log) →
      ∀ (ctx : Context) (s : Progress), Asked ctx g s →
        s.deepest ≤ ctx.limit + 196 ∧ s.depth = 0) ∧
    ∀ {formula : String} {here : Position} {a b : Arena} {root : NodeId},
      Formula.parse formula here a = (.ok root, b) →
      ∀ (ask : Position → Evaluation Unit) (functions : Functions) (shift : Position)
        (s : Progress), (∀ p, Still (ask p)) → s.grid.arena = b →
        (rootValue ask functions shift root s).2.deepest ≤ max s.deepest (s.depth + 195) := by
  refine ⟨fun hread ctx s hasked => ?_,
    fun {formula here a b root} hparse ask functions shift s hask hs => ?_⟩
  · obtain ⟨-, hdepth, hdeepest⟩ := hasked.deepens (written_ofText hread)
    exact ⟨hdeepest, hdepth⟩
  · obtain ⟨tokens, t, -, hwrites, hspells, -⟩ := Formula.parse_ok hparse
    have hR : Passage (Deepens (fun g => g.arena = b) 0) :=
      passage_deepens 0 fun g p _ hg => (arena_set g p _).trans hg
    have htakes : Takes (fun g => g.arena = b) 0 ask functions shift 195 false root :=
      takes_written (fun _ hg => hg) hR (fun _ p => (hask p).passes hR)
        ⟨here, tokens, t, hwrites, hspells⟩ false
    have hvalue : Deepens (fun g => g.arena = b) 0 195 s (rootValue ask functions shift root s).2 :=
      htakes s.grid.arena.levels s
    obtain ⟨-, -, hdeepest⟩ := hvalue hs
    omega

def askedReferences : Progress :=
  (evaluate ⟨1, .builtin⟩ (ensure ⟨1, .builtin⟩ ⟨0, 0⟩ { grid := twoReferences }).2).2

def signedNumber : Arena := ⟨#[.number 1.0, .sign .subtract 0]⟩

theorem depth_isBounded_references :
    Grid.ofText "=B1|=C1|5" = .ok (twoReferences, #[]) ∧
      Asked ⟨1, .builtin⟩ twoReferences askedReferences ∧
      (askedReferences.deepest ≤ 1 + 196 ∧ askedReferences.depth = 0) ∧
      Formula.parse "-(1)" .origin .empty = (.ok 1, signedNumber) ∧
      (rootValue (fun _ => pure ()) .builtin .origin 1
        { grid := { twoReferences with arena := signedNumber } }).2.deepest ≤ max 0 (0 + 195) := by
  have hread : Grid.ofText "=B1|=C1|5" = .ok (twoReferences, #[]) :=
    ok_of_toOption (by decide +kernel)
  have hasked : Asked ⟨1, .builtin⟩ twoReferences askedReferences := .evaluate (.ensure _ .start)
  have hparse : Formula.parse "-(1)" .origin .empty = (.ok 1, signedNumber) := by decide +kernel
  exact ⟨hread, hasked, depth_isBounded.1 hread _ _ hasked, hparse,
    depth_isBounded.2 hparse _ _ _ _ (fun _ => still_pure ()) rfl⟩

end Evaluation

end GridCalc
