import GridCalc.Proofs.Displacement
import GridCalc.Proofs.Passage
import GridCalc.Proofs.Returning

/-!
# Arenas filled by parsing

Formulas are parsed into one arena, one after another, and those that fail leave their nodes behind.
Whatever they are, each node refers to smaller places only, and a region is nothing but an argument
of a call. So working out a formula that has been parsed goes down from place to place and never
comes upon a region by itself: the fault of a region where a value is wanted is met only in a cell
that holds it, and is handed on like any other fault.
-/

set_option autoImplicit false

namespace GridCalc

/-- The arenas that parsing formulas makes, each wherever it stands and whether it is parsed or
not. -/
inductive Filled : Arena → Prop
  | empty : Filled .empty
  | parse {a : Arena} (formula : String) (here : Position) : Filled a →
      Filled (Formula.parse formula here a).2

theorem Filled.wellFormed {a : Arena} (h : Filled a) : a.WellFormed := by
  induction h with
  | empty => exact Arena.wellFormed_empty
  | parse formula here _ ih => exact Formula.parse_wellFormed rfl ih

namespace Arena

variable {a b : Arena} {id x y root : NodeId} {n : Node}

theorem Sound.grows (hab : a.Grows b) (hid : id < a.size) (h : a.Sound id n) : b.Sound id n := by
  have hregion : ∀ {i}, i < id → ¬ a.RegionAt i → ¬ b.RegionAt i := fun hi hnot hr =>
    hnot ((hab.regionAt (Nat.lt_trans hi hid)).1 hr)
  cases n with
  | binary op left right =>
    obtain ⟨hop, hl, hr, hnl, hnr⟩ := h
    exact ⟨hop, hl, hr, hregion hl hnl, hregion hr hnr⟩
  | sign op operand => exact ⟨h.1, hregion h.1 h.2⟩
  | _ => exact h

theorem Sound.child (h : a.Sound id n) (hy : y ∈ n.children) :
    y < id ∧ (a.RegionAt y → ∃ name arguments, n = .call name arguments) := by
  cases n with
  | binary op left right =>
    obtain ⟨-, hl, hr, hnl, hnr⟩ := h
    simp only [Node.children, List.mem_cons, List.not_mem_nil, or_false] at hy
    rcases hy with rfl | rfl
    · exact ⟨hl, fun hregion => absurd hregion hnl⟩
    · exact ⟨hr, fun hregion => absurd hregion hnr⟩
  | sign op operand =>
    obtain rfl := List.mem_singleton.1 hy
    exact ⟨h.1, fun hregion => absurd hregion h.2⟩
  | call name arguments => exact ⟨h y hy, fun _ => ⟨name, arguments, rfl⟩⟩
  | _ => simp [Node.children] at hy

def SoundAt (a : Arena) (root : NodeId) : Prop :=
  ∀ x n, a.Part root x → a.node? x = some n → a.Sound x n

theorem SoundAt.part (h : a.SoundAt root) (hx : a.Part root x) : a.SoundAt x := fun y n hy hn =>
  h y n (hx.trans hy) hn

theorem WellFormed.part_of_grows (ha : a.WellFormed) (hab : a.Grows b) (hroot : root < a.size)
    (h : b.Part root x) : x < a.size := by
  -- what stands at a place of the smaller arena is its own node, and refers to places of its own
  have hnode : ∀ {id n}, id < a.size → b.node? id = some n → a.Sound id n := by
    intro id n hid hn
    obtain ⟨m, -, hm⟩ := find_of_lt hid
    obtain rfl : m = n := Option.some.inj ((hab.node hm).symm.trans hn)
    exact ha id m hm
  induction h with
  | root => exact hroot
  | left hn _ ih => exact ih (Nat.lt_trans (hnode hroot hn).2.1 hroot)
  | right hn _ ih => exact ih (Nat.lt_trans (hnode hroot hn).2.2.1 hroot)
  | operand hn _ ih => exact ih (Nat.lt_trans (hnode hroot hn).1 hroot)
  | argument hn hmem _ ih => exact ih (Nat.lt_trans (hnode hroot hn _ hmem) hroot)

theorem WellFormed.soundAt (ha : a.WellFormed) (hab : a.Grows b) (hroot : root < a.size) :
    b.SoundAt root := by
  intro x n hx hn
  have hlt := ha.part_of_grows hab hroot hx
  obtain ⟨m, -, hm⟩ := find_of_lt hlt
  obtain rfl : m = n := Option.some.inj ((hab.node hm).symm.trans hn)
  exact (ha x m hm).grows hab hlt

end Arena

namespace Evaluation

variable {a : Arena} {ask : Position → Evaluation Unit} {functions : Functions} {shift : Position}
  {id : NodeId} {n : Node}

/-- The node at a place takes the values of no other parts than at smaller places that are no
regions: ways to take them that agree there come to the same. -/
def Descends (a : Arena) (id : NodeId) (n : Node) : Prop :=
  ∀ (ask : Position → Evaluation Unit) (functions : Functions) (shift : Position)
    (part part' : Bool → NodeId → Evaluation Float), Asks ask →
    (∀ chained i, i < id → ¬ a.RegionAt i → Same a (part chained i) (part' chained i)) →
    ∀ chained, Same a (nodeValue ask functions shift part chained n)
      (nodeValue ask functions shift part' chained n)

theorem same_nodeAt {α : Type} {f g : Node → Evaluation α} (hn : a.node? id = some n)
    (h : Same a (f n) (g n)) : Same a (nodeAt id >>= f) (nodeAt id >>= g) :=
  (Same.nodeAt hn h).trans (Same.nodeAt hn (h.symm.trans h)).symm

theorem same_argumentValues (hask : Asks ask) {part part' : NodeId → Evaluation Float}
    {ids : List NodeId} (hids : ∀ i ∈ ids, i < a.size)
    (hpart : ∀ i ∈ ids, ¬ a.RegionAt i → Same a (part i) (part' i)) :
    Same a (argumentValues ask shift part ids) (argumentValues ask shift part' ids) := by
  induction ids with
  | nil => exact same_pure []
  | cons id ids ih =>
    obtain ⟨hid, hrest⟩ := List.forall_mem_cons.1 hids
    obtain ⟨hpartid, hpartrest⟩ := List.forall_mem_cons.1 hpart
    have htail := ih hrest hpartrest
    obtain ⟨n, -, hn⟩ := Arena.find_of_lt hid
    refine same_nodeAt hn ?_
    cases n with
    | region r =>
      exact (same_of_follows hask fun g => follows_regionValues hask _).bind fun xs =>
        htail.bind fun rest => same_pure _
    | _ =>
      have hnot : ¬ a.RegionAt id := by simp [Arena.RegionAt, hn]
      exact (hpartid hnot).bind fun x => htail.bind fun rest => same_pure _

theorem descends_of_sound (hid : id < a.size) (h : a.Sound id n) : Descends a id n := by
  intro ask functions shift part part' hask hpart chained
  have hreference : ∀ p, Same a (nested (reference ask p)) (nested (reference ask p)) := fun p =>
    (same_of_follows hask fun g => follows_reference hask p).nested
  cases n with
  | number x => exact (same_pure x).nested
  | relative p => exact hreference _
  | absolute p => exact hreference p
  | region r => exact (same_fault .rangeValue).nested
  | binary op left right =>
    obtain ⟨-, hl, hr, hnl, hnr⟩ := h
    have hsteps := (hpart true left hl hnl).bind fun x => (hpart false right hr hnr).bind fun y =>
      same_ofExcept (op.apply x y)
    unfold nodeValue
    dsimp only
    split
    · exact hsteps
    · exact hsteps.nested
  | sign op operand =>
    exact ((hpart false operand h.1 h.2).bind fun x => same_pure _).nested
  | call name arguments =>
    have hfind : Same a (ofFault (functions.find name)) (ofFault (functions.find name)) :=
      same_of_follows hask fun g => follows_findFunction functions name
    have hcheck : ∀ f, Same a (checkArguments f arguments) (checkArguments f arguments) :=
      fun f => same_of_follows hask fun g => follows_checkArguments hask f arguments
    have hvalues : Same a (argumentValues ask shift (part false) arguments)
        (argumentValues ask shift (part' false) arguments) :=
      same_argumentValues hask (fun i hi => Nat.lt_trans (h i hi) hid)
        fun i hi => hpart false i (h i hi)
    exact (hfind.bind fun f => (hcheck f).bind fun _ => hvalues.bind fun xs =>
      same_ofExcept _).nested

end Evaluation

end GridCalc
