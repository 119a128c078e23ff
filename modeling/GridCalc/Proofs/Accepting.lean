import GridCalc.Proofs.Grammar

/-!
# What the grammar writes is parsed

A phrase that the grammar derives is parsed as the formula it derives, whatever follows it, as long
as that does not continue the phrase: a colon continues a reference, and an operator continues a
chain of its own precedence. The loop over a chain never runs out of turns, since each of them
passes over an operator at least.
-/

set_option autoImplicit false

namespace GridCalc.Formula
open GridCalc

/-- The tokens are parsed as the formula, the rest of them being left. -/
def Reads (p : Parser NodeId) (a : Arena) (ts rest : List Token) (t : Tree) : Prop :=
  ∃ id b, p ⟨ts ++ rest, a⟩ = (.ok id, ⟨rest, b⟩) ∧ a.Grows b ∧ b.Spells id t

def Apart (rest : List Token) : Prop := ∀ t ∈ rest.head?, t.kind ≠ .colon

def Past (symbols : List String) (rest : List Token) : Prop :=
  ∀ t ∈ rest.head?, t.kind = .operator → t.text ∉ symbols

/-- The parser accepts what the grammar derives, if the right tokens follow. -/
def Accepts (follow : List Token → Prop) (p : Parser NodeId) (phrase : Phrase) : Prop :=
  ∀ ⦃a ts rest t⦄, phrase ts t → follow rest → Reads p a ts rest t

def PastProduct (rest : List Token) : Prop := Apart rest ∧ Past tightSymbols rest

def PastSum (rest : List Token) : Prop := PastProduct rest ∧ Past looseSymbols rest

section

variable {here : Position} {a b : Arena} {operand unary : Parser NodeId} {R U : Phrase}
  {symbols : List String} {ts rest : List Token} {t : Tree} {s : Parse} {α : Type}
  {follow : List Token → Prop}

theorem advance_bind {f : Unit → Parser α} {x : Token} :
    (advance >>= f) ⟨x :: ts, a⟩ = f () ⟨ts, a⟩ := rfl

theorem peek_bind {f : Option Token → Parser α} {x : Token} :
    (peek >>= f) ⟨x :: ts, a⟩ = f (some x) ⟨x :: ts, a⟩ := rfl

theorem takeKind_bind {f : Option Token → Parser α} {x : Token} {kinds : List TokenKind}
    (h : x.kind ∈ kinds) :
    (takeKind kinds >>= f) ⟨x :: ts, a⟩ = f (some x) ⟨ts, a⟩ := by
  have hstep : takeKind kinds ⟨x :: ts, a⟩ = (.ok (some x), ⟨ts, a⟩) :=
    if_pos (List.contains_iff_mem.2 h)
  rw [Action.bind_ok hstep]

theorem takeKind_bind_none {f : Option Token → Parser α} {kinds : List TokenKind}
    (h : ∀ t ∈ ts.head?, t.kind ∉ kinds) : (takeKind kinds >>= f) ⟨ts, a⟩ = f none ⟨ts, a⟩ := by
  cases ts with
  | nil => rfl
  | cons x ts =>
    have hstep : takeKind kinds ⟨x :: ts, a⟩ = (.ok none, ⟨x :: ts, a⟩) :=
      if_neg fun hx => h x rfl (List.contains_iff_mem.1 hx)
    rw [Action.bind_ok hstep]

theorem rejectRegion_bind {f : Unit → Parser α} {id : NodeId} (h : ¬ s.arena.RegionAt id) :
    (rejectRegion id >>= f) s = f () s := by
  have hstep : rejectRegion id s = (.ok (), s) := by
    unfold rejectRegion
    split
    · next r hr => exact absurd ⟨r, hr⟩ h
    · rfl
  rw [Action.bind_ok hstep]

theorem resolve_bind {f : Position → Parser α} {x : Token} {p : Position} (h : Meant here x p) :
    (resolve here x >>= f) s = f p s := by
  cases h with
  | relative hkind hp =>
    have hstep : resolve here x s = (.ok p, s) := by
      rw [resolve, if_pos hkind, hp]
      rfl
    rw [Action.bind_ok hstep]
  | cell hkind hp =>
    have hstep : resolve here x s = (.ok p, s) := by
      rw [resolve, if_neg (by simp [hkind]), hp]
      rfl
    rw [Action.bind_ok hstep]

theorem Meant.kind {x : Token} {p : Position} (h : Meant here x p) :
    x.kind = .cell ∨ x.kind = .relative := by
  cases h with
  | relative hkind => exact .inr hkind
  | cell hkind => exact .inl hkind

theorem chainFrom_past {n : Nat} {left : NodeId} (h : Past symbols rest) :
    chainFrom operand symbols n left ⟨rest, a⟩ = (.ok left, ⟨rest, a⟩) := by
  cases n with
  | zero => rfl
  | succ n =>
    cases rest with
    | nil => rfl
    | cons x rest =>
      unfold chainFrom
      rw [peek_bind]
      dsimp only
      rw [if_neg fun hx => h x rfl hx.1 (List.contains_iff_mem.1 hx.2)]
      rfl

theorem Reads.chain (h : Reads operand a ts rest t) (hpast : Past symbols rest) :
    Reads (chain operand symbols) a ts rest t := by
  obtain ⟨id, b, hrun, hgrows, hspells⟩ := h
  refine ⟨id, b, ?_, hgrows, hspells⟩
  have hleft : tokensLeft ⟨rest, b⟩ = (.ok rest.length, ⟨rest, b⟩) := rfl
  unfold Formula.chain
  rw [Action.bind_ok hrun, Action.bind_ok hleft]
  exact chainFrom_past hpast

theorem chain_reaches (hoperand : Accepts follow operand R) (hwhole : R.Whole)
    (hfollow : ∀ op rest, op.kind = .operator → op.text ∈ symbols → follow (op :: rest))
    (h : Chain R symbols ts t) (hrest : follow rest) :
    ∃ n id b, rest.length ≤ n ∧ chain operand symbols ⟨ts ++ rest, a⟩ =
      chainFrom operand symbols n id ⟨rest, b⟩ ∧ a.Grows b ∧ b.Spells id t := by
  -- Once a chain is read, the loop is at the end of it with turns left for all that follows.
  induction h generalizing rest with
  | operand h =>
    obtain ⟨id, b, hrun, hgrows, hspells⟩ := hoperand (a := a) h hrest
    have hleft : tokensLeft ⟨rest, b⟩ = (.ok rest.length, ⟨rest, b⟩) := rfl
    refine ⟨rest.length, id, b, Nat.le_refl _, ?_, hgrows, hspells⟩
    unfold Formula.chain
    rw [Action.bind_ok hrun, Action.bind_ok hleft]
  | @more ls rs op left right hleft hkind hsymbol hright ih =>
    obtain ⟨n, l, b, hn, hrun, hgrows, hspells⟩ :=
      @ih (op :: (rs ++ rest)) (hfollow _ _ hkind hsymbol)
    obtain ⟨k, rfl⟩ : ∃ k, n = k + 1 := ⟨n - 1, by simp at hn; omega⟩
    obtain ⟨r, c, hrun', hgrows', hspells'⟩ := hoperand (a := b) hright hrest
    have hl := hspells.grows hgrows'
    have hnl : ¬ c.RegionAt l := fun h => Chain.whole hwhole hleft (hl.regionAt.1 h)
    have hnr : ¬ c.RegionAt r := fun h => hwhole hright (hspells'.regionAt.1 h)
    refine ⟨k, c.size, c.add (.binary (.ofSymbol op.text) l r), ?_, ?_, ?_, ?_⟩
    · simp at hn
      omega
    · rw [List.append_assoc, List.cons_append, hrun, chainFrom, peek_bind]
      dsimp only
      rw [if_pos ⟨hkind, List.contains_iff_mem.2 hsymbol⟩, advance_bind, Action.bind_ok hrun',
        rejectRegion_bind hnl, rejectRegion_bind hnr]
      rfl
    · exact (hgrows.trans hgrows').trans (c.grows_add _)
    · exact hl.add_binary hspells'

theorem chain_accepts (hoperand : Accepts follow operand R) (hwhole : R.Whole)
    (hfollow : ∀ op rest, op.kind = .operator → op.text ∈ symbols → follow (op :: rest)) :
    Accepts (fun rest => follow rest ∧ Past symbols rest) (chain operand symbols)
      (Chain R symbols) := by
  rintro a ts rest t h ⟨hrest, hpast⟩
  obtain ⟨n, id, b, -, hrun, hgrows, hspells⟩ :=
    chain_reaches (a := a) hoperand hwhole hfollow h hrest
  exact ⟨id, b, by rw [hrun, chainFrom_past hpast], hgrows, hspells⟩

theorem expression_accepts (hunary : Accepts Apart unary U) (hwhole : U.Whole) :
    Accepts PastSum (expression unary) (Sum U) := by
  have htight : ∀ (op : Token) rest, op.kind = .operator → op.text ∈ tightSymbols →
      Apart (op :: rest) := by
    intro op rest hkind _
    simp [Apart, hkind]
  have hloose : ∀ (op : Token) rest, op.kind = .operator → op.text ∈ looseSymbols →
      PastProduct (op :: rest) := by
    intro op rest hkind hsymbol
    refine ⟨by simp [Apart, hkind], ?_⟩
    rintro x ⟨⟩ _
    have hother : ∀ symbol ∈ looseSymbols, symbol ∉ tightSymbols := by decide
    exact hother _ hsymbol
  exact chain_accepts (chain_accepts hunary hwhole htight) (Chain.whole hwhole) hloose

theorem reference_reads {x : Token} {p : Position} (h : Meant here x p) (hrest : Apart rest) :
    Reads (reference here x) a [x] rest (.relative p) := by
  refine ⟨a.size, a.add (.relative p), ?_, a.grows_add _, .relative (a.node?_add_size _)⟩
  rw [reference, List.singleton_append, advance_bind, resolve_bind h,
    takeKind_bind_none (by simpa [Apart] using hrest)]
  rfl

theorem reference_reads_region {x colon y : Token} {p q : Position} (hp : Meant here x p)
    (hcolon : colon.kind = .colon) (hq : Meant here y q) :
    Reads (reference here x) a [x, colon, y] rest (.region ⟨p, q⟩) := by
  have hkind := hq.kind
  refine ⟨a.size, a.add (.region ⟨p, q⟩), ?_, a.grows_add _, .region (a.node?_add_size _)⟩
  rw [reference, List.cons_append, advance_bind, resolve_bind hp, List.cons_append,
    takeKind_bind (by simp [hcolon]), List.singleton_append]
  dsimp only
  rw [takeKind_bind (by simpa using hkind)]
  dsimp only
  rw [resolve_bind hq]
  rfl

/-- The parser of signed factors accepts them and regions. -/
structure Complete (here : Position) (unary : Parser NodeId) (U : Phrase) : Prop where
  accepts : Accepts Apart unary U
  whole : U.Whole
  region : ∀ {a x colon y rest p q}, Meant here x p → colon.kind = .colon → Meant here y q →
    Reads unary a [x, colon, y] rest (.region ⟨p, q⟩)

theorem argument_accepts (h : Complete here unary U) :
    Accepts PastSum (expression unary) (Argument here (Sum U)) := by
  intro a ts rest t ht hrest
  cases ht with
  | whole ht => exact expression_accepts h.accepts h.whole ht hrest
  | region hp hcolon hq => exact ((h.region hp hcolon hq).chain hrest.1.2).chain hrest.2

theorem pastSum_cons (rest : List Token) {x : Token} (hcolon : x.kind ≠ .colon)
    (hoperator : x.kind ≠ .operator) :
    PastSum (x :: rest) := by
  refine ⟨⟨?_, ?_⟩, ?_⟩
  · rintro _ ⟨⟩
    exact hcolon
  · rintro _ ⟨⟩ h
    exact absurd h hoperator
  · rintro _ ⟨⟩ h
    exact absurd h hoperator

theorem argumentsFrom_reads (h : Complete here unary U) (rest : List Token) {trees : List Tree}
    {n : Nat}
    (harguments : Arguments (Argument here (Sum U)) ts trees) (hn : ts.length ≤ n) :
    ∃ ids b, argumentsFrom unary n ⟨ts ++ rest, a⟩ = (.ok ids, ⟨rest, b⟩) ∧ a.Grows b ∧
      ids.length = trees.length ∧ ∀ x ∈ ids.zip trees, b.Spells x.1 x.2 := by
  induction harguments generalizing a n with
  | @last ts t close ht hclose =>
    obtain ⟨k, rfl⟩ : ∃ k, n = k + 1 := ⟨n - 1, by simp at hn; omega⟩
    obtain ⟨id, b, hrun, hgrows, hspells⟩ := argument_accepts h (a := a) ht
      (pastSum_cons rest (x := close) (by simp [hclose]) (by simp [hclose]))
    refine ⟨[id], b, ?_, hgrows, rfl, by simpa using hspells⟩
    rw [List.append_assoc, List.singleton_append, argumentsFrom, Action.bind_ok hrun, peek_bind]
    dsimp only
    rw [if_pos hclose, advance_bind]
    rfl
  | @next ts us t trees comma ht hcomma _ ih =>
    obtain ⟨k, rfl⟩ : ∃ k, n = k + 1 := ⟨n - 1, by simp at hn; omega⟩
    obtain ⟨id, b, hrun, hgrows, hspells⟩ := argument_accepts h (a := a) ht
      (pastSum_cons (us ++ rest) (x := comma) (by simp [hcomma]) (by simp [hcomma]))
    obtain ⟨ids, c, hrun', hgrows', hlength, hall⟩ := ih (a := b) (n := k) (by simp at hn; omega)
    refine ⟨id :: ids, c, ?_, hgrows.trans hgrows', by simp [hlength], ?_⟩
    · rw [List.append_assoc, List.cons_append, argumentsFrom, Action.bind_ok hrun, peek_bind]
      dsimp only
      rw [if_neg (by simp [hcomma]), if_pos hcomma, advance_bind, Action.bind_ok hrun']
      rfl
    · rintro x hx
      rw [List.zip_cons_cons, List.mem_cons] at hx
      rcases hx with rfl | hx
      · exact hspells.grows hgrows'
      · exact hall x hx

theorem callOf_reads (h : Complete here unary U) (rest : List Token) {trees : List Tree}
    (name : String)
    (harguments : Arguments (Argument here (Sum U)) ts trees) :
    Reads (callOf name unary) a ts rest (.call name trees) := by
  have hleft : tokensLeft ⟨ts ++ rest, a⟩ = (.ok (ts ++ rest).length, ⟨ts ++ rest, a⟩) := rfl
  obtain ⟨ids, b, hrun, hgrows, hlength, hall⟩ := argumentsFrom_reads (a := a) h rest
    harguments (n := (ts ++ rest).length + 1) (by simp; omega)
  refine ⟨b.size, b.add (.call name ids), ?_, hgrows.trans (b.grows_add _),
    Arena.spells_add_call hlength hall⟩
  rw [callOf, Action.bind_ok hleft, Action.bind_ok hrun]
  rfl

def Matched (here : Position) (level : Option (Parser NodeId)) (phrase : Option Phrase) : Prop :=
  ∀ U, phrase = some U → ∃ unary, level = some unary ∧ Complete here unary U

variable {level : Option (Parser NodeId)} {phrase : Option Phrase}

theorem unaryAt_of_factor {x : Token} (h : x.kind ≠ .operator) :
    unaryAt here level ⟨x :: ts, a⟩ = factor here level x ⟨x :: ts, a⟩ := by
  rw [unaryAt, peek_bind]
  dsimp only
  rw [if_neg fun hx => h hx.1]

theorem unaryAt_of_meant {x : Token} {p : Position} (h : Meant here x p) :
    unaryAt here level ⟨x :: ts, a⟩ = reference here x ⟨x :: ts, a⟩ := by
  rcases h.kind with hkind | hkind
  · rw [unaryAt_of_factor (by simp [hkind]), factor, hkind]
  · rw [unaryAt_of_factor (by simp [hkind]), factor, hkind]

theorem unaryAt_accepts (h : Matched here level phrase) :
    Accepts Apart (unaryAt here level) (UnaryAt here phrase) := by
  intro a ts rest t ht hrest
  cases ht with
  | @number x value hkind hvalue =>
    refine ⟨a.size, a.add (.number value), ?_, a.grows_add _, .number (a.node?_add_size _)⟩
    rw [List.singleton_append, unaryAt_of_factor (by simp [hkind]), factor, hkind]
    dsimp only
    rw [advance_bind, hvalue]
    rfl
  | @relative x p hp =>
    obtain ⟨id, b, hrun, hrest⟩ := reference_reads (a := a) hp hrest
    exact ⟨id, b, by rw [← hrun, List.singleton_append, unaryAt_of_meant hp], hrest⟩
  | @absolute dollar x p hkind hp =>
    refine ⟨a.size, a.add (.absolute p), ?_, a.grows_add _, .absolute (a.node?_add_size _)⟩
    have hpeek : peek ⟨rest, a⟩ = (.ok rest.head?, ⟨rest, a⟩) := rfl
    have hcolon : (rest.head?.map (·.kind)) ≠ some .colon := by
      intro hc
      obtain ⟨x, hx, hkind⟩ := Option.map_eq_some_iff.1 hc
      exact hrest x hx hkind
    rw [List.cons_append, unaryAt_of_factor (by simp [hkind]), factor, hkind]
    dsimp only
    rw [advance_bind, List.singleton_append, takeKind_bind (by simpa using hp.kind)]
    dsimp only
    rw [Action.bind_ok hpeek, if_neg hcolon, resolve_bind hp]
    rfl
  | @sign sign ts operand U hU hkind hsymbol hoperand =>
    obtain ⟨unary, rfl, hcomplete⟩ := h U hU
    obtain ⟨o, b, hrun, hgrows, hspells⟩ := hcomplete.accepts (a := a) hoperand hrest
    have hregion : ¬ b.RegionAt o := fun hr => hcomplete.whole hoperand (hspells.regionAt.1 hr)
    refine ⟨b.size, b.add (.sign (.ofSymbol sign.text) o), ?_, hgrows.trans (b.grows_add _),
      hspells.add_sign⟩
    rw [List.cons_append, unaryAt, peek_bind]
    dsimp only
    rw [if_pos ⟨hkind, List.contains_iff_mem.2 hsymbol⟩, advance_bind]
    have hwithin : within (some unary) sign id ⟨ts ++ rest, a⟩ = (.ok o, ⟨rest, b⟩) := hrun
    rw [Action.bind_ok hwithin, rejectRegion_bind hregion]
    rfl
  | @bracket first last ts t U hU hfirst hlast hinner =>
    obtain ⟨unary, rfl, hcomplete⟩ := h U hU
    obtain ⟨o, b, hrun, hgrows, hspells⟩ := expression_accepts hcomplete.accepts hcomplete.whole
      (a := a) hinner (pastSum_cons rest (x := last) (by simp [hlast]) (by simp [hlast]))
    have hregion : ¬ b.RegionAt o :=
      fun hr => Sum.whole hcomplete.whole hinner (hspells.regionAt.1 hr)
    refine ⟨o, b, ?_, hgrows, hspells⟩
    rw [List.append_assoc, List.singleton_append, List.cons_append,
      unaryAt_of_factor (by simp [hfirst]), factor, hfirst]
    dsimp only
    have hwithin : within (some unary) first expression ⟨ts ++ last :: rest, a⟩ =
        (.ok o, ⟨last :: rest, b⟩) := hrun
    rw [advance_bind, Action.bind_ok hwithin, rejectRegion_bind hregion,
      takeKind_bind (by simp [hlast])]
    rfl
  | @call name first ts trees U hU hname hfirst harguments =>
    obtain ⟨unary, rfl, hcomplete⟩ := h U hU
    obtain ⟨id, b, hrun, hrest⟩ := callOf_reads (a := a) hcomplete rest name.text harguments
    refine ⟨id, b, ?_, hrest⟩
    rw [List.cons_append, unaryAt_of_factor (by simp [hname]), factor, hname]
    dsimp only
    rw [advance_bind, List.cons_append, takeKind_bind (by simp [hfirst])]
    exact hrun

theorem unaryAt_complete (h : Matched here level phrase) :
    Complete here (unaryAt here level) (UnaryAt here phrase) := by
  refine ⟨unaryAt_accepts h, UnaryAt.whole fun U hU => ?_, fun hp hcolon hq => ?_⟩
  · obtain ⟨_, -, hcomplete⟩ := h U hU
    exact hcomplete.whole
  · obtain ⟨id, b, hrun, hrest⟩ := reference_reads_region hp hcolon hq
    exact ⟨id, b, by rw [← hrun]; exact unaryAt_of_meant hp, hrest⟩

theorem unary_complete (here : Position) (n : Nat) :
    Complete here (Formula.unary here n) (Unary here n) := by
  induction n with
  | zero => exact unaryAt_complete (by simp [Matched])
  | succ n ih =>
    refine unaryAt_complete ?_
    rintro _ ⟨⟩
    exact ⟨_, rfl, ih⟩

/-- Whatever the grammar writes is parsed. -/
theorem parse_writes {formula : String} {tokens : List Token} (hscan : scan formula = .ok tokens)
    (h : Writes here tokens t) :
    ∃ root b, parse formula here a = (.ok root, b) ∧ a.Grows b ∧ b.Spells root t := by
  have hcomplete := unary_complete here maxLevels
  have hend : PastSum [] := by simp [PastSum, PastProduct, Apart, Past]
  obtain ⟨root, b, hrun, hgrows, hspells⟩ := expression_accepts hcomplete.accepts hcomplete.whole
    (a := a) h hend
  have hregion : ¬ b.RegionAt root := fun hr => Sum.whole hcomplete.whole h (hspells.regionAt.1 hr)
  refine ⟨root, b, ?_, hgrows, hspells⟩
  rw [List.append_nil] at hrun
  have hpeek : peek ⟨[], b⟩ = (.ok none, ⟨[], b⟩) := rfl
  have hparse : parseTokens here ⟨tokens, a⟩ = (.ok root, ⟨[], b⟩) := by
    rw [parseTokens, Action.bind_ok hrun, Action.bind_ok hpeek]
    dsimp only
    rw [rejectRegion_bind hregion]
    rfl
  unfold parse
  rw [hscan]
  dsimp only
  rw [hparse]

end

end GridCalc.Formula
