import GridCalc.Proofs.Accepting
import GridCalc.Proofs.Displacement

/-!
# Formulas typed elsewhere

A formula that points to other cells, and names cells only behind a dollar, can be typed anywhere.
At two positions it is parsed in the same steps, to the same fault or to two formulas, of which the
second has the relative references of the first moved by the way between the positions. To move
those of a formula is to move the shift that it is worked out with. So a clone of the formula is
worth what it would be worth if it had been typed in the cell of the clone.
-/

set_option autoImplicit false

namespace GridCalc

namespace Position

theorem shift_wayFrom (o p : Position) : o.shift (p.wayFrom o) = p := by
  cases p
  simp only [shift, wayFrom, mk.injEq]
  omega

theorem shift_shift_comm (q d s : Position) : (q.shift d).shift s = q.shift (s.shift d) := by
  simp only [shift, mk.injEq]
  omega

theorem ofRelative_shift (o d : Position) (text : String) :
    (o.shift d).ofRelative text = (o.ofRelative text).map (·.shift d) := by
  unfold ofRelative
  split
  · rfl
  · split
    · rfl
    · simp only [← move_shift]
      split
      · rfl
      · split <;> rfl

end Position

namespace Tree

mutual

def moved (d : Position) : Tree → Tree
  | number x => number x
  | relative p => relative (p.shift d)
  | absolute p => absolute p
  | region r => region (r.shift d)
  | binary op left right => binary op (left.moved d) (right.moved d)
  | sign op operand => sign op (operand.moved d)
  | call name arguments => call name (movedAll d arguments)

def movedAll (d : Position) : List Tree → List Tree
  | [] => []
  | t :: ts => t.moved d :: movedAll d ts

end

theorem isRegion_moved (d : Position) (t : Tree) : (t.moved d).isRegion = t.isRegion := by
  cases t <;> rfl

theorem isRegion_iff {t : Tree} : t.isRegion ↔ t.IsRegion := by
  cases t <;> simp [isRegion, IsRegion]

theorem length_movedAll (d : Position) (ts : List Tree) :
    (movedAll d ts).length = ts.length := by
  induction ts with
  | nil => rfl
  | cons t ts ih => simp [movedAll, ih]

end Tree

namespace Formula

/-- Cells are named behind a dollar only, and pointed to without one. `fixed` tells whether a dollar
has gone before. -/
def Portable : Bool → List Token → Prop
  | _, [] => True
  | fixed, t :: ts =>
    (t.kind = .cell → fixed = true) ∧ (t.kind = .relative → fixed = false) ∧
      Portable (t.kind == .dollar) ts

instance decidablePortable : (fixed : Bool) → (ts : List Token) → Decidable (Portable fixed ts)
  | _, [] => .isTrue trivial
  | fixed, t :: ts =>
    let _ := decidablePortable (t.kind == .dollar) ts
    inferInstanceAs (Decidable ((t.kind = .cell → fixed = true) ∧
      (t.kind = .relative → fixed = false) ∧ Portable (t.kind == .dollar) ts))

section

variable {fixed : Bool} {t : Token} {ts : List Token}

theorem Portable.tail (h : Portable fixed (t :: ts)) (ht : t.kind ≠ .dollar) :
    Portable false ts := by
  have hrest : Portable (t.kind == .dollar) ts := h.2.2
  rwa [beq_eq_false_iff_ne.2 ht] at hrest

theorem Portable.behind (h : Portable fixed (t :: ts)) (ht : t.kind = .dollar) :
    Portable true ts := by
  have hrest : Portable (t.kind == .dollar) ts := h.2.2
  rwa [ht] at hrest

theorem Portable.relative (h : Portable false (t :: ts))
    (ht : t.kind ∈ [TokenKind.cell, TokenKind.relative]) : t.kind = .relative := by
  simp only [List.mem_cons, List.not_mem_nil, or_false] at ht
  exact ht.resolve_left fun hcell => Bool.false_ne_true (h.1 hcell)

theorem Portable.cell (h : Portable true (t :: ts))
    (ht : t.kind ∈ [TokenKind.cell, TokenKind.relative]) : t.kind = .cell := by
  simp only [List.mem_cons, List.not_mem_nil, or_false] at ht
  exact ht.resolve_right fun hrelative => Bool.false_ne_true (h.2.1 hrelative).symm

end

/-- The second formula is the first with its relative references moved, each in its own arena. -/
def Twin (d : Position) (i j : NodeId) (a b : Arena) : Prop :=
  ∃ t, a.Spells i t ∧ b.Spells j (t.moved d)

def TwinAll (d : Position) (is js : List NodeId) (a b : Arena) : Prop :=
  ∃ ts, Evaluation.SpellsAll a is ts ∧ Evaluation.SpellsAll b js (Tree.movedAll d ts)

/-- What parsing comes to in two arenas: it stops for one reason, or leaves the same tokens, which
do not begin behind a dollar. -/
inductive Parallel {α : Type} (good : α → α → Arena → Arena → Prop) (a b : Arena) :
    Except Stop α × Parse → Except Stop α × Parse → Prop
  | stopped {e : Stop} {s u : Parse} : Parallel good a b (.error e, s) (.error e, u)
  | done {v w : α} {ts : List Token} {c e : Arena} : Portable false ts → a.Grows c → b.Grows e →
      good v w c e → Parallel good a b (.ok v, ⟨ts, c⟩) (.ok w, ⟨ts, e⟩)

def Twins (d : Position) (x y : Parser NodeId) : Prop :=
  ∀ ⦃ts a b⦄, Portable false ts → Parallel (Twin d) a b (x ⟨ts, a⟩) (y ⟨ts, b⟩)

section

variable {d o : Position} {a b c e : Arena} {i j : NodeId} {ts : List Token} {α β : Type}
  {good : α → α → Arena → Arena → Prop} {goal : β → β → Arena → Arena → Prop}

theorem Twin.grows (hc : a.Grows c) (he : b.Grows e) (h : Twin d i j a b) : Twin d i j c e := by
  obtain ⟨t, hi, hj⟩ := h
  exact ⟨t, hi.grows hc, hj.grows he⟩

theorem Twin.regionAt (h : Twin d i j a b) : b.RegionAt j ↔ a.RegionAt i := by
  obtain ⟨t, hi, hj⟩ := h
  rw [hi.regionAt, hj.regionAt, ← Tree.isRegion_iff, ← Tree.isRegion_iff, Tree.isRegion_moved]

theorem Twin.cons {is js : List NodeId} (h : Twin d i j a b) (hrest : TwinAll d is js a b) :
    TwinAll d (i :: is) (j :: js) a b := by
  obtain ⟨t, hi, hj⟩ := h
  obtain ⟨ts, his, hjs⟩ := hrest
  refine ⟨t :: ts, ⟨congrArg (· + 1) his.1, ?_⟩, ⟨congrArg (· + 1) hjs.1, ?_⟩⟩
  · exact List.forall_mem_cons.2 ⟨hi, his.2⟩
  · exact List.forall_mem_cons.2 ⟨hj, hjs.2⟩

theorem Parallel.before {x y : Except Stop α × Parse} (h : Parallel good c e x y)
    (hc : a.Grows c) (he : b.Grows e) : Parallel good a b x y := by
  cases h with
  | stopped => exact .stopped
  | done hts hc' he' hgood => exact .done hts (hc.trans hc') (he.trans he') hgood

theorem Parallel.bind {x y : Parser α} {f g : α → Parser β}
    (h : Parallel good a b (x ⟨ts, a⟩) (y ⟨ts, b⟩))
    (hf : ∀ {v w us c e}, Portable false us → a.Grows c → b.Grows e → good v w c e →
      Parallel goal c e (f v ⟨us, c⟩) (g w ⟨us, e⟩)) :
    Parallel goal a b ((x >>= f) ⟨ts, a⟩) ((y >>= g) ⟨ts, b⟩) := by
  generalize hx : x ⟨ts, a⟩ = out at h
  generalize hy : y ⟨ts, b⟩ = out' at h
  cases h with
  | stopped =>
    rw [Action.bind_error hx, Action.bind_error hy]
    exact .stopped
  | done hts hc he hgood =>
    rw [Action.bind_ok hx, Action.bind_ok hy]
    exact (hf hts hc he hgood).before hc he

theorem Parallel.takeKind {f g : Option Token → Parser β} {kinds : List TokenKind}
    (hnone : Parallel goal a b (f none ⟨ts, a⟩) (g none ⟨ts, b⟩))
    (hsome : ∀ t us, ts = t :: us → t.kind ∈ kinds →
      Parallel goal a b (f (some t) ⟨us, a⟩) (g (some t) ⟨us, b⟩)) :
    Parallel goal a b ((takeKind kinds >>= f) ⟨ts, a⟩) ((takeKind kinds >>= g) ⟨ts, b⟩) := by
  cases ts with
  | nil => exact hnone
  | cons t us =>
    by_cases ht : t.kind ∈ kinds
    · rw [takeKind_bind ht, takeKind_bind ht]
      exact hsome t us rfl ht
    · rw [takeKind_bind_none (by simpa using ht), takeKind_bind_none (by simpa using ht)]
      exact hnone

theorem Parallel.addNode {n m : Node} (hts : Portable false ts)
    (h : Twin d a.size b.size (a.add n) (b.add m)) :
    Parallel (Twin d) a b (addNode n ⟨ts, a⟩) (addNode m ⟨ts, b⟩) :=
  .done hts (a.grows_add n) (b.grows_add m) h

theorem Parallel.rejectRegion {f g : Unit → Parser β} (h : Twin d i j a b)
    (hrest : Parallel goal a b (f () ⟨ts, a⟩) (g () ⟨ts, b⟩)) :
    Parallel goal a b ((rejectRegion i >>= f) ⟨ts, a⟩) ((rejectRegion j >>= g) ⟨ts, b⟩) := by
  by_cases hi : a.RegionAt i
  · have hstop : ∀ {k : NodeId} {c : Arena}, c.RegionAt k →
        Formula.rejectRegion k ⟨ts, c⟩ = (.error (.fault .looseRange), ⟨ts, c⟩) := by
      rintro k c ⟨r, hr⟩
      unfold Formula.rejectRegion
      rw [hr]
    rw [Action.bind_error (hstop hi), Action.bind_error (hstop (h.regionAt.2 hi))]
    exact .stopped
  · rw [rejectRegion_bind hi, rejectRegion_bind (mt h.regionAt.1 hi)]
    exact hrest

theorem Parallel.resolve_relative {f g : Position → Parser β} {t : Token}
    (ht : t.kind = .relative)
    (h : ∀ p, Parallel goal a b (f p ⟨ts, a⟩) (g (p.shift d) ⟨ts, b⟩)) :
    Parallel goal a b ((resolve o t >>= f) ⟨ts, a⟩)
      ((resolve (o.shift d) t >>= g) ⟨ts, b⟩) := by
  simp only [resolve, if_pos ht, Position.ofRelative_shift]
  cases o.ofRelative t.text with
  | error _ => exact .stopped
  | ok p => exact h p

theorem Parallel.resolve_cell {f g : Position → Parser β} {t : Token} (ht : t.kind = .cell)
    (h : ∀ p, Parallel goal a b (f p ⟨ts, a⟩) (g p ⟨ts, b⟩)) :
    Parallel goal a b ((resolve o t >>= f) ⟨ts, a⟩)
      ((resolve (o.shift d) t >>= g) ⟨ts, b⟩) := by
  -- A cell is named alike everywhere.
  have hne : t.kind ≠ .relative := by simp [ht]
  simp only [resolve, if_neg hne]
  cases Position.ofName? t.text with
  | error _ => exact .stopped
  | ok found =>
    cases found with
    | none => exact .stopped
    | some p => exact h p

end

section

variable {d o : Position} {a b : Arena} {ts : List Token} {x y : Parser NodeId}

theorem chainFrom_parallel {symbols : List String} (hoperand : Twins d x y) {n : Nat}
    {i j : NodeId} (hts : Portable false ts) (hleft : Twin d i j a b) :
    Parallel (Twin d) a b (chainFrom x symbols n i ⟨ts, a⟩)
      (chainFrom y symbols n j ⟨ts, b⟩) := by
  induction n generalizing i j ts a b with
  | zero => exact .done hts (.refl a) (.refl b) hleft
  | succ n ih =>
    cases ts with
    | nil => exact .done hts (.refl a) (.refl b) hleft
    | cons t us =>
      unfold chainFrom
      rw [peek_bind, peek_bind]
      dsimp only
      split
      · next hop =>
        have hus : Portable false us := hts.tail (by simp [hop.1])
        rw [advance_bind, advance_bind]
        refine (hoperand hus).bind fun hvs hc he hright => ?_
        have hleft := hleft.grows hc he
        refine .rejectRegion hleft <| .rejectRegion hright <| .bind (.addNode hvs ?_)
          fun hws _ _ hid => ih hws hid
        obtain ⟨l, hl, hl'⟩ := hleft
        obtain ⟨r, hr, hr'⟩ := hright
        exact ⟨.binary (.ofSymbol t.text) l r, hl.add_binary hr, hl'.add_binary hr'⟩
      · exact .done hts (.refl a) (.refl b) hleft

theorem Twins.chain {symbols : List String} (hoperand : Twins d x y) :
    Twins d (chain x symbols) (chain y symbols) := by
  intro ts a b hts
  refine (hoperand hts).bind fun {i j us c e} hus _ _ hleft => ?_
  exact chainFrom_parallel hoperand hus hleft

theorem Twins.expression (h : Twins d x y) : Twins d (expression x) (expression y) :=
  Twins.chain (Twins.chain h)

theorem argumentsFrom_parallel (h : Twins d x y) {n : Nat} (hts : Portable false ts) :
    Parallel (TwinAll d) a b (argumentsFrom x n ⟨ts, a⟩) (argumentsFrom y n ⟨ts, b⟩) := by
  induction n generalizing ts a b with
  | zero => exact .stopped
  | succ n ih =>
    refine (h.expression hts).bind fun {i j us c e} hus _ _ hfirst => ?_
    cases us with
    | nil => exact .stopped
    | cons t vs =>
      rw [peek_bind, peek_bind]
      dsimp only
      split
      · next hclose =>
        have hlast : TwinAll d [i] [j] c e := hfirst.cons ⟨[], ⟨rfl, by simp⟩, ⟨rfl, by simp⟩⟩
        exact .done (hus.tail (by simp [hclose])) (.refl c) (.refl e) hlast
      · split
        · next hcomma =>
          rw [advance_bind, advance_bind]
          refine (ih (hus.tail (by simp [hcomma]))).bind fun hws hc he hrest => ?_
          exact .done hws (.refl _) (.refl _) ((hfirst.grows hc he).cons hrest)
        · exact .stopped

theorem Twins.callOf (h : Twins d x y) (name : String) :
    Twins d (callOf name x) (callOf name y) := by
  intro ts a b hts
  refine (argumentsFrom_parallel h hts).bind fun {is js us c e} hus _ _ hall => .addNode hus ?_
  obtain ⟨trees, his, hjs⟩ := hall
  exact ⟨.call name trees, Arena.spells_add_call his.1 his.2, Arena.spells_add_call hjs.1 hjs.2⟩

theorem reference_parallel {t : Token} (hts : Portable false (t :: ts))
    (ht : t.kind ∈ [TokenKind.cell, TokenKind.relative]) :
    Parallel (Twin d) a b (reference o t ⟨t :: ts, a⟩)
      (reference (o.shift d) t ⟨t :: ts, b⟩) := by
  have hkind : t.kind = .relative := hts.relative ht
  have hrest : Portable false ts := hts.tail (by simp [hkind])
  unfold reference
  rw [advance_bind, advance_bind]
  refine .resolve_relative hkind fun p => .takeKind ?_ ?_
  · refine .addNode hrest ?_
    exact ⟨.relative p, .relative (a.node?_add_size _), .relative (b.node?_add_size _)⟩
  · rintro colon us rfl hcolon
    have hcolonKind : colon.kind = .colon := List.mem_singleton.1 hcolon
    have hus : Portable false us := hrest.tail (by simp [hcolonKind])
    refine .takeKind .stopped ?_
    rintro last vs rfl hlast
    have hlastKind : last.kind = .relative := hus.relative hlast
    refine .resolve_relative hlastKind fun q => .addNode (hus.tail (by simp [hlastKind])) ?_
    exact ⟨.region ⟨p, q⟩, .region (a.node?_add_size _), .region (b.node?_add_size _)⟩

end

section

variable {d o : Position} {a b : Arena} {ts : List Token}
  {level level' : Option (Parser NodeId)}

theorem within_parallel {good : NodeId → NodeId → Arena → Arena → Prop} {t : Token}
    {body : Parser NodeId → Parser NodeId} (hlevel : Option.Rel (Twins d) level level')
    (hbody : ∀ {x y}, Twins d x y → Parallel good a b (body x ⟨ts, a⟩) (body y ⟨ts, b⟩)) :
    Parallel good a b (within level t body ⟨ts, a⟩) (within level' t body ⟨ts, b⟩) := by
  cases hlevel with
  | none => exact .stopped
  | some h => exact hbody h

theorem factor_parallel (hlevel : Option.Rel (Twins d) level level') {t : Token}
    (hts : Portable false (t :: ts)) :
    Parallel (Twin d) a b (factor o level t ⟨t :: ts, a⟩)
      (factor (o.shift d) level' t ⟨t :: ts, b⟩) := by
  unfold factor
  cases hkind : t.kind with
  | number =>
    have hrest : Portable false ts := hts.tail (by simp [hkind])
    dsimp only
    rw [advance_bind, advance_bind]
    cases Decimal.read? t.text with
    | some v =>
      exact .addNode hrest ⟨.number v, .number (a.node?_add_size _), .number (b.node?_add_size _)⟩
    | none => exact .stopped
  | cell => exact reference_parallel hts (by simp [hkind])
  | relative => exact reference_parallel hts (by simp [hkind])
  | dollar =>
    have hrest : Portable true ts := hts.behind hkind
    dsimp only
    rw [advance_bind, advance_bind]
    refine .takeKind .stopped ?_
    rintro ref us rfl href
    -- nowhere else a reference is read that a dollar has gone before
    have hcell : ref.kind = .cell := hrest.cell href
    have hpeek : ∀ c, peek ⟨us, c⟩ = (.ok us.head?, ⟨us, c⟩) := fun _ => rfl
    dsimp only
    rw [Action.bind_ok (hpeek a), Action.bind_ok (hpeek b)]
    split
    · exact .stopped
    · refine .resolve_cell hcell fun p => .addNode (hrest.tail (by simp [hcell])) ?_
      exact ⟨.absolute p, .absolute (a.node?_add_size _), .absolute (b.node?_add_size _)⟩
  | name =>
    have hrest : Portable false ts := hts.tail (by simp [hkind])
    dsimp only
    rw [advance_bind, advance_bind]
    refine .takeKind .stopped ?_
    rintro first us rfl hfirst
    have hopen : first.kind = .openParen := List.mem_singleton.1 hfirst
    exact within_parallel hlevel fun h => h.callOf t.text (hrest.tail (by simp [hopen]))
  | openParen =>
    have hrest : Portable false ts := hts.tail (by simp [hkind])
    dsimp only
    rw [advance_bind, advance_bind]
    refine (within_parallel hlevel fun h => h.expression hrest).bind fun hus _ _ hinner => ?_
    refine .rejectRegion hinner <| .takeKind .stopped ?_
    rintro last vs rfl hlast
    have hclose : last.kind = .closeParen := List.mem_singleton.1 hlast
    exact .done (hus.tail (by simp [hclose])) (.refl _) (.refl _) hinner
  | operator => exact .stopped
  | closeParen => exact .stopped
  | comma => exact .stopped
  | colon => exact .stopped

theorem unaryAt_twins (hlevel : Option.Rel (Twins d) level level') :
    Twins d (unaryAt o level) (unaryAt (o.shift d) level') := by
  intro ts a b hts
  cases ts with
  | nil => exact .stopped
  | cons t us =>
    unfold unaryAt
    rw [peek_bind, peek_bind]
    dsimp only
    split
    · next hsign =>
      have hus : Portable false us := hts.tail (by simp [hsign.1])
      rw [advance_bind, advance_bind]
      refine (within_parallel hlevel fun h => h hus).bind fun hvs _ _ hid => ?_
      refine .rejectRegion hid <| .addNode hvs ?_
      obtain ⟨operand, hi, hj⟩ := hid
      exact ⟨.sign (.ofSymbol t.text) operand, hi.add_sign, hj.add_sign⟩
    · exact factor_parallel hlevel hts

theorem unary_twins (o d : Position) (n : Nat) :
    Twins d (unary o n) (unary (o.shift d) n) := by
  induction n with
  | zero => exact unaryAt_twins .none
  | succ n ih => exact unaryAt_twins (.some ih)

theorem parseTokens_twins (o d : Position) : Twins d (parseTokens o) (parseTokens (o.shift d)) := by
  intro ts a b hts
  refine ((unary_twins o d maxLevels).expression hts).bind fun {i j us c e} hus _ _ hroot => ?_
  cases us with
  | cons t vs => exact .stopped
  | nil => exact .rejectRegion hroot (.done hus (.refl c) (.refl e) hroot)

/-- A formula that can be typed anywhere is parsed at any two positions to the same fault, or to a
formula at one and the same formula moved by the way between them at the other. -/
theorem parse_moved {formula : String}
    (h : ∀ tokens, scan formula = .ok tokens → Portable false tokens) (o d : Position)
    (a b : Arena) :
    (∃ e, (parse formula o a).1 = .error e ∧ (parse formula (o.shift d) b).1 = .error e) ∨
      ∃ i j, (parse formula o a).1 = .ok i ∧ (parse formula (o.shift d) b).1 = .ok j ∧
        Twin d i j (parse formula o a).2 (parse formula (o.shift d) b).2 := by
  unfold parse
  cases hscan : scan formula with
  | error f => exact .inl ⟨.fault f, rfl, rfl⟩
  | ok tokens =>
    have hparallel := parseTokens_twins o d (a := a) (b := b) (h tokens hscan)
    dsimp only
    generalize parseTokens o ⟨tokens, a⟩ = out at hparallel
    generalize parseTokens (o.shift d) ⟨tokens, b⟩ = out' at hparallel
    cases hparallel with
    | stopped => exact .inl ⟨_, rfl, rfl⟩
    | done _ _ _ htwin => exact .inr ⟨_, _, rfl, rfl, htwin⟩

end

end Formula

namespace Evaluation

section

variable {ask : Position → Evaluation Unit} {functions : Functions}
  {place : Position → Position} {d : Position}

theorem checkTreeForms_moved (name : String) {kinds : List ArgumentKind} {index : Nat}
    {ts : List Tree} :
    checkTreeForms name index kinds (Tree.movedAll d ts) = checkTreeForms name index kinds ts := by
  induction kinds generalizing index ts with
  | nil => rfl
  | cons kind kinds ih =>
    cases ts with
    | nil => rfl
    | cons t ts => simp only [Tree.movedAll, checkTreeForms, Tree.isRegion_moved, ih]

theorem checkTrees_moved (f : Function) (ts : List Tree) :
    checkTrees f (Tree.movedAll d ts) = checkTrees f ts := by
  simp only [checkTrees, Tree.length_movedAll, checkTreeForms_moved]

theorem treeArguments_cons {t : Tree} (ht : t.isRegion = false) (ts : List Tree) :
    treeArguments ask functions place (t :: ts) = (do
      let x ← treeValue ask functions place false t
      let rest ← treeArguments ask functions place ts
      pure (.scalar x :: rest)) := by
  cases t with
  | region => cases ht
  | _ => rfl

mutual

theorem treeValue_moved (chained : Bool) : (t : Tree) →
    treeValue ask functions place chained (t.moved d) =
      treeValue ask functions (fun p => place (p.shift d)) chained t
  | .number _ => rfl
  | .relative _ => rfl
  | .absolute _ => rfl
  | .region _ => rfl
  | .binary op left right => by
    simp only [Tree.moved, treeValue]
    rw [treeValue_moved true left, treeValue_moved false right]
  | .sign op operand => by
    simp only [Tree.moved, treeValue]
    rw [treeValue_moved false operand]
  | .call name arguments => by
    simp only [Tree.moved, treeValue, checkTrees_moved]
    rw [treeArguments_moved arguments]

theorem treeArguments_moved : (ts : List Tree) →
    treeArguments ask functions place (Tree.movedAll d ts) =
      treeArguments ask functions (fun p => place (p.shift d)) ts
  | [] => rfl
  | t :: ts => by
    have hrest := treeArguments_moved ts
    cases ht : t.isRegion with
    | true =>
      obtain ⟨r, rfl⟩ := Tree.isRegion_iff.1 ht
      simp only [Tree.movedAll, Tree.moved, treeArguments, hrest]
      rfl
    | false =>
      rw [Tree.movedAll, treeArguments_cons ((Tree.isRegion_moved d t).trans ht),
        treeArguments_cons ht, treeValue_moved false t, hrest]

end

/-- A formula moved by `d` is worth what the formula is worth where the shift is larger by `d`. -/
theorem rootValue_moved (hask : Asks ask) {a : Arena} {i j : NodeId} {t : Tree} (shift : Position)
    (hi : a.Spells i t) (hj : a.Spells j (t.moved d)) :
    Same a (rootValue ask functions (shift.shift d) i) (rootValue ask functions shift j) := by
  have hmoved : treeValue ask functions (·.shift shift) false (t.moved d) =
      treeValue ask functions (·.shift (shift.shift d)) false t := by
    rw [treeValue_moved]
    simp only [Position.shift_shift_comm]
  refine (rootValue_tree hask hi).trans ?_
  rw [← hmoved]
  exact (rootValue_tree hask hj).symm

end

section

open Formula

/-- A formula that can be typed anywhere meets the same fault in any two cells, or is the same
formula in both, moved by the way between them. With that way added to its shift, the first has the
value or the fault of the second on every table whose arena holds them, whatever state it is in, and
leaves the same table. A clone of the first in the cell of the second has that shift. -/
theorem formula_retyped {formula : String}
    (h : ∀ tokens, scan formula = .ok tokens → Portable false tokens) (o p : Position)
    (a b : Arena) :
    (∃ e, (parse formula o a).1 = .error e ∧ (parse formula p b).1 = .error e) ∨
      ∃ t i j, (parse formula o a).1 = .ok i ∧ (parse formula p b).1 = .ok j ∧
        (parse formula o a).2.Spells i t ∧
        (parse formula p b).2.Spells j (t.moved (p.wayFrom o)) ∧
        (∀ ctx shift s, s.grid.arena.Spells i t → s.grid.arena.Spells j (t.moved (p.wayFrom o)) →
          formulaValue ctx i (shift.shift (p.wayFrom o)) s = formulaValue ctx j shift s) ∧
        ∀ (c : Cell) shift x d offset, c.content = .formula i shift x → p.move d offset = o →
          c.cloned d offset = ⟨.formula i (shift.shift (p.wayFrom o)) 0.0, .pending⟩ := by
  have hparse := parse_moved h o (p.wayFrom o) a b
  rw [Position.shift_wayFrom] at hparse
  refine hparse.imp id ?_
  rintro ⟨i, j, hi, hj, t, hit, hjt⟩
  refine ⟨t, i, j, hi, hj, hit, hjt, fun ctx shift s his hjs => ?_, ?_⟩
  · exact (rootValue_moved (settle_settles ctx).asks shift his hjs s rfl).1
  · rintro c shift x d offset hc rfl
    rw [Cell.cloned, hc, ← Position.move_reverse_eq_shift]

def typedTwice : Grid :=
  ⟨2, 2, #v[#v[⟨.number 5.0, .pending⟩, ⟨.formula 2 .origin 0.0, .pending⟩],
    #v[⟨.number 6.0, .pending⟩, ⟨.formula 5 .origin 0.0, .pending⟩]],
    ⟨#[.relative ⟨0, 0⟩, .absolute ⟨0, 0⟩, .binary .multiply 0 1, .relative ⟨1, 0⟩,
      .absolute ⟨0, 0⟩, .binary .multiply 3 4]⟩⟩

theorem formula_retyped_below :
    Grid.ofText "5|=<*$A1\n6|=<*$A1" = .ok (typedTwice, #[]) ∧
      (∀ tokens, scan "<*$A1" = .ok tokens → Portable false tokens) ∧
      (∀ ctx shift, formulaValue ctx 2 (shift.shift ⟨1, 0⟩) { grid := typedTwice } =
        formulaValue ctx 5 shift { grid := typedTwice }) ∧
      (⟨.formula 2 .origin 0.0, .pending⟩ : Cell).cloned .up 1 =
        ⟨.formula 2 ⟨1, 0⟩ 0.0, .pending⟩ := by
  have hread : Grid.ofText "5|=<*$A1\n6|=<*$A1" = .ok (typedTwice, #[]) :=
    ok_of_toOption (by decide +kernel)
  have hscan : scan "<*$A1" = .ok [⟨.relative, "<", 0⟩, ⟨.operator, "*", 1⟩, ⟨.dollar, "$", 2⟩,
      ⟨.cell, "A1", 3⟩] := ok_of_toOption (by decide +kernel)
  have hportable : ∀ tokens, scan "<*$A1" = .ok tokens → Portable false tokens := by
    rintro tokens htokens
    obtain rfl := Except.ok.inj (hscan.symm.trans htokens)
    decide
  obtain ⟨b, hfirst⟩ : ∃ b, parse "<*$A1" ⟨0, 1⟩ .empty = (.ok 2, b) :=
    ⟨_, Action.eq_ok (by decide +kernel)⟩
  have hsecond : parse "<*$A1" ⟨1, 1⟩ b = (.ok 5, typedTwice.arena) := by
    obtain rfl := (Prod.mk.inj hfirst).2
    decide +kernel
  obtain ⟨e, he, -⟩ | ⟨t, i, j, hi, hj, hit, hjt, hvalue, hcloned⟩ :=
    formula_retyped hportable ⟨0, 1⟩ ⟨1, 1⟩ .empty b
  · rw [hfirst] at he
    cases he
  · rw [hfirst] at hi hit
    rw [hsecond] at hj hjt
    cases hi
    cases hj
    have hgrows : b.Grows typedTwice.arena := parse_grows (Prod.ext_iff.1 hsecond).2
    exact ⟨hread, hportable, fun ctx shift => hvalue ctx shift _ (hit.grows hgrows) hjt,
      hcloned _ .origin 0.0 .up 1 rfl rfl⟩

end

end Evaluation

end GridCalc
