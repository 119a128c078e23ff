import GridCalc.Proofs.Grammar
import GridCalc.Proofs.Scanning

/-!
# What parsing does

However parsing ends, the arena has only been added to and is well formed if it was so before. If
parsing succeeds, the tokens it has read are written by the grammar for the formula that it spells
in the arena. If it stops, that is with a fault of cutting or of parsing, or at a token that cannot
be read. Faults quote nothing but tokens, and the functions that are called have the texts of tokens
for their names.
-/

set_option autoImplicit false

namespace GridCalc

def Fault.QuotesAmong (all : List Token) (f : Fault) : Prop :=
  ∀ quoted ∈ f.quotes, ∃ t ∈ all, t.text.toList = quoted

def Node.CallsAmong (all : List Token) : Node → Prop
  | call name _ => ∃ t ∈ all, t.text = name
  | _ => True

def Arena.CallsAmong (all : List Token) (a b : Arena) : Prop :=
  ∀ id n, b.node? id = some n → a.node? id = some n ∨ n.CallsAmong all

namespace Arena.CallsAmong

variable {all : List Token} {a b c : Arena}

theorem refl (all : List Token) (a : Arena) : CallsAmong all a a := fun _ _ => .inl

theorem trans (hab : CallsAmong all a b) (hbc : CallsAmong all b c) : CallsAmong all a c :=
  fun id n hn => (hbc id n hn).elim (hab id n) .inr

theorem add {n : Node} (hn : n.CallsAmong all) : CallsAmong all a (a.add n) := by
  intro id m hm
  rcases Nat.lt_trichotomy id a.size with hlt | rfl | hgt
  · exact .inl (node?_add_of_lt n hlt ▸ hm)
  · obtain rfl : n = m := Option.some.inj ((node?_add_size a n).symm.trans hm)
    exact .inr hn
  · have hlt := lt_size_of_node hm
    rw [size_add] at hlt
    exact absurd hgt (Nat.not_lt.2 (Nat.lt_succ_iff.1 hlt))

end Arena.CallsAmong

end GridCalc

namespace GridCalc.Formula
open GridCalc

/-- Why a token cannot be read, whatever stands around it. -/
inductive Unreadable (here : Position) (t : Token) : Breakdown → Prop
  | number : t.kind = .number → Decimal.read? t.text = none →
      Unreadable here t (.decimalText t.text)
  | relative {b : Breakdown} : t.kind = .relative → here.ofRelative t.text = .error b →
      Unreadable here t b
  | cell {b : Breakdown} : t.kind = .cell → Position.ofName? t.text = .error b →
      Unreadable here t b

/-- What parsing has come to, where `good` tells what holds of the tokens read and the result in the
arena that is left, and only the tokens in `all` may be found unreadable. -/
structure Ended (here : Position) (all : List Token) {α : Type}
    (good : List Token → α → Arena → Prop) (s : Parse) (out : Except Stop α × Parse) : Prop where
  grows : s.arena.Grows out.2.arena
  wellFormed : s.arena.WellFormed → out.2.arena.WellFormed
  calls : s.arena.CallsAmong all out.2.arena
  reads : ∃ used, s.tokens = used ++ out.2.tokens ∧
    ∀ x, out.1 = .ok x → good used x out.2.arena
  stops : ∀ e, out.1 = .error e →
    (∃ f, e = .fault f ∧ f.category = .parse ∧ f.QuotesAmong all) ∨
    ∃ t ∈ all, ∃ b, e = .breakdown b ∧ Unreadable here t b

/-- What parsing some of all the tokens comes to. -/
def Outcome (here : Position) (all : List Token) {α : Type}
    (good : List Token → α → Arena → Prop) (s : Parse) (out : Except Stop α × Parse) : Prop :=
  s.tokens ⊆ all → Ended here all good s out

def Spelt (r : Phrase) (used : List Token) (id : NodeId) (a : Arena) : Prop :=
  ∃ t, r used t ∧ a.Spells id t

def SpeltAll (argument : Phrase) (used : List Token) (ids : List NodeId) (a : Arena) : Prop :=
  ∃ trees, Arguments argument used trees ∧ ids.length = trees.length ∧
    ∀ x ∈ ids.zip trees, a.Spells x.1 x.2

section

variable {here : Position} {all : List Token} {α β : Type}
  {good : List Token → α → Arena → Prop} {goal : List Token → β → Arena → Prop} {s u : Parse}
  {out : Except Stop α × Parse}

theorem quotesAmong {f : Fault} {t : Token} (ht : t ∈ all) (hf : f.quotes = [t.text.toList]) :
    f.QuotesAmong all := by
  rw [Fault.QuotesAmong, hf]
  exact List.forall_mem_singleton.2 ⟨t, ht, rfl⟩

theorem Outcome.ok {x : α} (h : good [] x s.arena) : Outcome here all good s (.ok x, s) := by
  refine fun _ => ⟨.refl _, fun hw => hw, .refl _ _, ⟨[], rfl, ?_⟩, by simp⟩
  rintro y ⟨⟩
  exact h

theorem Outcome.quoting {f : Fault} (hf : f.category = .parse) (hquotes : f.QuotesAmong all) :
    Outcome here all good s (.error (.fault f), s) := by
  refine fun _ => ⟨.refl _, fun hw => hw, .refl _ _, ⟨[], rfl, by simp⟩, ?_⟩
  rintro e ⟨⟩
  exact .inl ⟨f, rfl, hf, hquotes⟩

theorem Outcome.fault (f : Fault) (hf : f.category = .parse) (hquotes : f.quotes = []) :
    Outcome here all good s (.error (.fault f), s) :=
  .quoting hf (by simp [Fault.QuotesAmong, hquotes])

theorem Outcome.facing {f : Fault} {t : Token} (ht : t ∈ s.tokens) (hf : f.category = .parse)
    (hquotes : f.quotes = [t.text.toList]) : Outcome here all good s (.error (.fault f), s) :=
  fun hs => Outcome.quoting hf (quotesAmong (hs ht) hquotes) hs

theorem Outcome.unreadable {t : Token} {b : Breakdown} (ht : t ∈ all)
    (hb : Unreadable here t b) : Outcome here all good s (.error (.breakdown b), s) := by
  refine fun _ => ⟨.refl _, fun hw => hw, .refl _ _, ⟨[], rfl, by simp⟩, ?_⟩
  rintro e ⟨⟩
  exact .inr ⟨t, ht, b, rfl, hb⟩

theorem Outcome.after (used : List Token) (ht : s.tokens = used ++ u.tokens)
    (hg : s.arena.Grows u.arena) (hw : s.arena.WellFormed → u.arena.WellFormed)
    (hc : s.arena.CallsAmong all u.arena)
    (h : Outcome here all (fun later => good (used ++ later)) u out) :
    Outcome here all good s out := by
  intro hs
  obtain ⟨hgrows, hwell, hcalls, ⟨later, hlater, hgood⟩, hstops⟩ :=
    h fun t hmem => hs (ht ▸ List.mem_append_right used hmem)
  refine ⟨hg.trans hgrows, fun h => hwell (hw h), hc.trans hcalls, ⟨used ++ later, ?_, hgood⟩,
    hstops⟩
  rw [ht, hlater, List.append_assoc]

theorem Outcome.imp {good' : List Token → α → Arena → Prop} (h : Outcome here all good s out)
    (himp : ∀ used x a, good used x a → good' used x a) : Outcome here all good' s out := by
  intro hs
  obtain ⟨hgrows, hwell, hcalls, ⟨used, htokens, hgood⟩, hstops⟩ := h hs
  exact ⟨hgrows, hwell, hcalls, ⟨used, htokens, fun x hx => himp _ _ _ (hgood x hx)⟩, hstops⟩

theorem Outcome.bind {x : Parser α} {f : α → Parser β} (hx : Outcome here all good s (x s))
    (hf : ∀ used y u, s.arena.Grows u.arena → good used y u.arena →
      Outcome here all (fun later => goal (used ++ later)) u (f y u)) :
    Outcome here all goal s ((x >>= f) s) := by
  intro hs
  obtain ⟨hgrows, hwell, hcalls, ⟨used, htokens, hgood⟩, hstops⟩ := hx hs
  rcases hu : x s with ⟨r, u⟩
  rw [hu] at hgrows hwell hcalls htokens hgood hstops
  cases r with
  | ok y =>
    rw [Action.bind_ok hu]
    exact Outcome.after used htokens hgrows hwell hcalls (hf used y u hgrows (hgood y rfl)) hs
  | error e =>
    rw [Action.bind_error hu]
    refine ⟨hgrows, hwell, hcalls, ⟨used, htokens, by simp⟩, ?_⟩
    rintro e' ⟨⟩
    exact hstops e rfl

theorem Outcome.advance {f : Unit → Parser β} {t : Token} {ts : List Token}
    (ht : s.tokens = t :: ts)
    (h : t ∈ all →
      Outcome here all (fun later => goal (t :: later)) ⟨ts, s.arena⟩ (f () ⟨ts, s.arena⟩)) :
    Outcome here all goal s ((advance >>= f) s) := by
  have hstep : Formula.advance s = (.ok (), (⟨ts, s.arena⟩ : Parse)) := by
    show (Except.ok (), (⟨s.tokens.tail, s.arena⟩ : Parse)) = _
    rw [ht]
    rfl
  rw [Action.bind_ok hstep]
  intro hs
  have hmem : t ∈ all := hs (by simp [ht])
  exact Outcome.after (u := ⟨ts, s.arena⟩) [t] ht (.refl _) (fun hw => hw) (.refl _ _) (h hmem) hs

theorem Outcome.takeKind {f : Option Token → Parser β} {kinds : List TokenKind}
    (hnone : Outcome here all goal s (f none s))
    (hsome : ∀ t ts, t ∈ all → t.kind ∈ kinds →
      Outcome here all (fun later => goal (t :: later)) ⟨ts, s.arena⟩
        (f (some t) ⟨ts, s.arena⟩)) :
    Outcome here all goal s ((takeKind kinds >>= f) s) := by
  rcases hs : s with ⟨tokens, a⟩
  subst hs
  cases tokens with
  | nil => exact hnone
  | cons t ts =>
    by_cases hk : kinds.contains t.kind
    · have hstep : Formula.takeKind kinds ⟨t :: ts, a⟩ = (.ok (some t), ⟨ts, a⟩) := if_pos hk
      rw [Action.bind_ok hstep]
      intro hs
      exact Outcome.after (u := ⟨ts, a⟩) [t] rfl (.refl _) (fun hw => hw) (.refl _ _)
        (hsome t ts (hs (by simp)) (by simpa using hk)) hs
    · have hstep : Formula.takeKind kinds ⟨t :: ts, a⟩ = (.ok none, ⟨t :: ts, a⟩) := if_neg hk
      rw [Action.bind_ok hstep]
      exact hnone

theorem Outcome.addNode {good : List Token → NodeId → Arena → Prop} {n : Node}
    (hn : s.arena.Sound s.arena.size n) (hcalls : n.CallsAmong all)
    (h : good [] s.arena.size (s.arena.add n)) : Outcome here all good s (addNode n s) := by
  refine fun _ => ⟨s.arena.grows_add n, fun hw => hw.add hn, .add hcalls, ⟨[], rfl, ?_⟩, ?_⟩
  · rintro x ⟨⟩
    exact h
  · rintro e ⟨⟩

theorem Outcome.rejectRegion {f : Unit → Parser β} {id : NodeId}
    (h : ¬ s.arena.RegionAt id → Outcome here all goal s (f () s)) :
    Outcome here all goal s ((rejectRegion id >>= f) s) := by
  cases hn : s.arena.node? id with
  | none =>
    have hstep : Formula.rejectRegion id s = (.ok (), s) := by
      unfold Formula.rejectRegion
      rw [hn]
    rw [Action.bind_ok hstep]
    exact h (by simp [Arena.RegionAt, hn])
  | some n =>
    cases n with
    | region r =>
      have hstep : Formula.rejectRegion id s = (.error (.fault .looseRange), s) := by
        unfold Formula.rejectRegion
        rw [hn]
      rw [Action.bind_error hstep]
      exact .fault _ rfl rfl
    | _ =>
      have hstep : Formula.rejectRegion id s = (.ok (), s) := by
        unfold Formula.rejectRegion
        rw [hn]
      rw [Action.bind_ok hstep]
      exact h (by simp [Arena.RegionAt, hn])

theorem Outcome.resolve {f : Position → Parser β} {t : Token} (ht : t ∈ all)
    (hk : t.kind ∈ [TokenKind.cell, TokenKind.relative])
    (h : ∀ p, Meant here t p → Outcome here all goal s (f p s)) :
    Outcome here all goal s ((resolve here t >>= f) s) := by
  unfold Formula.resolve
  split
  · next hrel =>
    cases hp : here.ofRelative t.text with
    | ok p =>
      have hstep : ofBreakdown (.ok p) s = (.ok p, s) := rfl
      rw [Action.bind_ok hstep]
      exact h p (.relative hrel hp)
    | error b =>
      have hstep : (ofBreakdown (.error b) : Parser Position) s = (.error (.breakdown b), s) := rfl
      rw [Action.bind_error hstep]
      exact .unreadable ht (.relative hrel hp)
  · next hrel =>
    have hcell : t.kind = .cell := by
      simp only [List.mem_cons, List.not_mem_nil, or_false] at hk
      exact hk.resolve_right hrel
    cases hp : Position.ofName? t.text with
    | error b => exact .unreadable ht (.cell hcell hp)
    | ok found =>
      cases found with
      | some p => exact h p (.cell hcell hp)
      | none => exact .quoting rfl (quotesAmong ht rfl)

end

section

variable {here : Position} {all : List Token} {unary operand : Parser NodeId} {R U : Phrase}
  {level : Option Phrase} {s : Parse}

theorem Spelt.whole {used : List Token} {id : NodeId} {a : Arena}
    (h : Spelt (Argument here R) used id a) (hid : ¬ a.RegionAt id) : Spelt R used id a := by
  obtain ⟨t, ht, hs⟩ := h
  cases ht with
  | whole hr => exact ⟨_, hr, hs⟩
  | region => exact absurd (hs.regionAt.2 ⟨_, rfl⟩) hid

theorem chainFrom_outcome {symbols : List String}
    (hsymbols : ∀ symbol ∈ symbols, (Operator.ofSymbol symbol).IsArithmetic)
    (hoperand : ∀ s, Outcome here all (Spelt (Argument here R)) s (operand s)) {n : Nat}
    {left : NodeId} {before : List Token}
    (hleft : Spelt (Argument here (Chain R symbols)) before left s.arena) :
    Outcome here all (fun later => Spelt (Argument here (Chain R symbols)) (before ++ later)) s
      (chainFrom operand symbols n left s) := by
  induction n generalizing left before s with
  | zero => exact .ok (by simpa using hleft)
  | succ n ih =>
    have hdone : Outcome here all
        (fun later => Spelt (Argument here (Chain R symbols)) (before ++ later)) s (.ok left, s) :=
      .ok (by simpa using hleft)
    rcases s with ⟨tokens, a⟩
    cases tokens with
    | nil => exact hdone
    | cons op ts =>
      have hpeek : peek ⟨op :: ts, a⟩ = (.ok (some op), ⟨op :: ts, a⟩) := rfl
      unfold chainFrom
      rw [Action.bind_ok hpeek]
      dsimp only
      split
      · next hop =>
        obtain ⟨hkind, hsymbol⟩ := hop
        have hmem : op.text ∈ symbols := by simpa using hsymbol
        refine .advance rfl fun _ => (hoperand _).bind fun used right u hg hright => ?_
        refine .rejectRegion fun hnl => .rejectRegion fun hnr => ?_
        obtain ⟨lt, hl, hsl⟩ := hleft
        have hsl' := hsl.grows hg
        obtain ⟨lt', hl', hsl''⟩ := Spelt.whole ⟨lt, hl, hsl'⟩ hnl
        obtain ⟨rt, hr, hsr⟩ := hright.whole hnr
        have hadd : Outcome here all
            (fun later => Spelt (Chain R symbols) (before ++ op :: used ++ later)) u
            (addNode (.binary (.ofSymbol op.text) left right) u) := by
          refine .addNode ⟨hsymbols _ hmem, hsl'.lt_size, hsr.lt_size, hnl, hnr⟩ trivial
            ⟨_, ?_, hsl''.add_binary hsr⟩
          rw [List.append_nil]
          exact .more hl' hkind hmem hr
        refine hadd.bind fun later id v _ hid => ?_
        obtain ⟨t, ht, hst⟩ := hid
        have hnext := ih (s := v) ⟨t, .whole ht, hst⟩
        simpa [List.append_assoc] using hnext
      · exact hdone

theorem chain_outcome {symbols : List String}
    (hsymbols : ∀ symbol ∈ symbols, (Operator.ofSymbol symbol).IsArithmetic)
    (hoperand : ∀ s, Outcome here all (Spelt (Argument here R)) s (operand s)) (s : Parse) :
    Outcome here all (Spelt (Argument here (Chain R symbols))) s (chain operand symbols s) := by
  refine (hoperand s).bind fun used left u _ hleft => ?_
  obtain ⟨t, ht, hst⟩ := hleft
  apply chainFrom_outcome hsymbols hoperand
  refine ⟨t, ?_, hst⟩
  cases ht with
  | whole hr => exact .whole (.operand hr)
  | region hp hc hq => exact .region hp hc hq

theorem expression_outcome
    (hunary : ∀ s, Outcome here all (Spelt (Argument here U)) s (unary s)) (s : Parse) :
    Outcome here all (Spelt (Argument here (Sum U))) s (expression unary s) := by
  have hloose : ∀ symbol ∈ looseSymbols, (Operator.ofSymbol symbol).IsArithmetic :=
    fun _ h => Operator.isArithmetic_of_mem (List.mem_append_left tightSymbols h)
  have htight : ∀ symbol ∈ tightSymbols, (Operator.ofSymbol symbol).IsArithmetic :=
    fun _ h => Operator.isArithmetic_of_mem (List.mem_append_right looseSymbols h)
  exact chain_outcome hloose (chain_outcome htight hunary) s

theorem argumentsFrom_outcome
    (hunary : ∀ s, Outcome here all (Spelt (Argument here U)) s (unary s)) (n : Nat) (s : Parse) :
    Outcome here all (SpeltAll (Argument here (Sum U))) s (argumentsFrom unary n s) := by
  induction n generalizing s with
  | zero => exact .fault _ rfl rfl
  | succ n ih =>
    refine (expression_outcome hunary s).bind fun used id u _ hfirst => ?_
    rcases u with ⟨tokens, a⟩
    obtain ⟨t, ht, hst⟩ := hfirst
    cases tokens with
    | nil => exact .fault _ rfl rfl
    | cons close ts =>
      have hpeek : peek ⟨close :: ts, a⟩ = (.ok (some close), ⟨close :: ts, a⟩) := rfl
      rw [Action.bind_ok hpeek]
      dsimp only
      split
      · next hclose =>
        refine .advance rfl fun _ => .ok ⟨[t], .last ht hclose, rfl, ?_⟩
        simpa using hst
      · split
        · next hcomma =>
          refine .advance rfl fun _ => (ih _).bind fun used' ids v hg hrest => ?_
          obtain ⟨trees, harguments, hlength, hall⟩ := hrest
          refine .ok ⟨t :: trees, ?_, by simp [hlength], ?_⟩
          · simpa using Arguments.next ht hcomma harguments
          · rintro x hx
            simp only [List.zip_cons_cons, List.mem_cons] at hx
            rcases hx with rfl | hx
            · exact hst.grows hg
            · exact hall x hx
        · exact .fault _ rfl rfl

theorem callOf_outcome {name : Token} (hname : name ∈ all)
    (hunary : ∀ s, Outcome here all (Spelt (Argument here U)) s (unary s)) (s : Parse) :
    Outcome here all
      (fun used id a => ∃ trees, Arguments (Argument here (Sum U)) used trees ∧
        a.Spells id (.call name.text trees)) s (callOf name.text unary s) := by
  have hleft : tokensLeft s = (.ok s.tokens.length, s) := rfl
  unfold callOf
  rw [Action.bind_ok hleft]
  refine (argumentsFrom_outcome hunary _ s).bind fun used ids u _ hall => ?_
  obtain ⟨trees, harguments, hlength, hspells⟩ := hall
  have hlt := Arena.lt_size_of_mem hlength hspells
  exact .addNode hlt ⟨name, hname, rfl⟩
    ⟨trees, by simpa using harguments, Arena.spells_add_call hlength hspells⟩

theorem reference_outcome {t : Token} {ts : List Token} {a : Arena}
    (hk : t.kind ∈ [TokenKind.cell, TokenKind.relative]) :
    Outcome here all (Spelt (Argument here (UnaryAt here level))) ⟨t :: ts, a⟩
      (reference here t ⟨t :: ts, a⟩) := by
  refine .advance rfl fun hmem => .resolve hmem hk fun p hp => .takeKind ?_ ?_
  · refine .addNode trivial trivial ⟨_, .whole (.relative hp), .relative (Arena.node?_add_size ..)⟩
  · intro colon us _ hcolon
    refine .takeKind (.fault _ rfl rfl) fun last vs hlast hkind => ?_
    refine .resolve hlast hkind fun q hq => ?_
    exact .addNode trivial trivial
      ⟨_, .region hp (by simpa using hcolon) hq, .region (Arena.node?_add_size ..)⟩

end

section

variable {here : Position} {all : List Token} {level : Option (Parser NodeId)}
  {phrase : Option Phrase}

def Deeper (here : Position) (all : List Token) (level : Option (Parser NodeId))
    (phrase : Option Phrase) : Prop :=
  ∀ unary, level = some unary →
    ∃ U, phrase = some U ∧ ∀ s, Outcome here all (Spelt (Argument here U)) s (unary s)

theorem within_outcome {good : List Token → NodeId → Arena → Prop} {s : Parse} {t : Token}
    {body : Parser NodeId → Parser NodeId} (hlevel : Deeper here all level phrase)
    (hbody : ∀ unary U, phrase = some U →
      (∀ s, Outcome here all (Spelt (Argument here U)) s (unary s)) →
      Outcome here all good s (body unary s)) :
    Outcome here all good s (within level t body s) := by
  cases level with
  | none => exact .fault _ rfl rfl
  | some unary =>
    obtain ⟨U, hU, hunary⟩ := hlevel unary rfl
    exact hbody unary U hU hunary

theorem factor_outcome (hlevel : Deeper here all level phrase) (t : Token) (ts : List Token)
    (a : Arena) :
    Outcome here all (Spelt (Argument here (UnaryAt here phrase))) ⟨t :: ts, a⟩
      (factor here level t ⟨t :: ts, a⟩) := by
  unfold factor
  cases hkind : t.kind with
  | number =>
    refine .advance rfl fun hmem => ?_
    cases hx : Decimal.read? t.text with
    | some x =>
      exact .addNode trivial trivial
        ⟨_, .whole (.number hkind hx), .number (Arena.node?_add_size ..)⟩
    | none => exact .unreadable hmem (.number hkind hx)
  | cell => exact reference_outcome (by simp [hkind])
  | relative => exact reference_outcome (by simp [hkind])
  | dollar =>
    refine .advance rfl fun _ => .takeKind (.fault _ rfl rfl) fun ref us href hreference => ?_
    have hpeek : peek ⟨us, a⟩ = (.ok us.head?, ⟨us, a⟩) := rfl
    dsimp only
    rw [Action.bind_ok hpeek]
    split
    · exact .fault _ rfl rfl
    · refine .resolve href hreference fun p hp => .addNode trivial trivial ?_
      exact ⟨_, .whole (.absolute hkind hp), .absolute (Arena.node?_add_size ..)⟩
  | name =>
    refine .advance rfl fun hmem => .takeKind (.quoting rfl (quotesAmong hmem rfl))
      fun first us _ hfirst => ?_
    refine within_outcome hlevel fun unary U hU hunary => ?_
    refine (callOf_outcome hmem hunary ⟨us, a⟩).imp fun used id b hcall => ?_
    obtain ⟨trees, harguments, hspells⟩ := hcall
    exact ⟨_, .whole (.call hU hkind (by simpa using hfirst) harguments), hspells⟩
  | openParen =>
    refine .advance rfl fun _ => .bind
      (within_outcome hlevel fun unary U hU hunary =>
        (expression_outcome hunary ⟨ts, a⟩).imp fun used id b h =>
          (⟨U, hU, h⟩ : ∃ U, phrase = some U ∧ Spelt (Argument here (Sum U)) used id b)) ?_
    rintro used id u _ ⟨U, hU, hid⟩
    refine .rejectRegion fun hregion => .takeKind (.fault _ rfl rfl) fun last us _ hlast => .ok ?_
    obtain ⟨tree, hsum, hspells⟩ := hid.whole hregion
    refine ⟨tree, .whole ?_, hspells⟩
    simpa using UnaryAt.bracket hU hkind (by simpa using hlast) hsum
  | operator => exact .facing List.mem_cons_self rfl rfl
  | closeParen => exact .fault _ rfl rfl
  | comma => exact .fault _ rfl rfl
  | colon => exact .fault _ rfl rfl

theorem unaryAt_outcome (hlevel : Deeper here all level phrase) (s : Parse) :
    Outcome here all (Spelt (Argument here (UnaryAt here phrase))) s (unaryAt here level s) := by
  rcases s with ⟨tokens, a⟩
  cases tokens with
  | nil => exact .fault _ rfl rfl
  | cons t ts =>
    have hpeek : peek ⟨t :: ts, a⟩ = (.ok (some t), ⟨t :: ts, a⟩) := rfl
    unfold unaryAt
    rw [Action.bind_ok hpeek]
    dsimp only
    split
    · next hsign =>
      have hmem : t.text ∈ looseSymbols := List.contains_iff_mem.1 hsign.2
      refine .advance rfl fun _ => .bind
        (within_outcome hlevel fun unary U hU hunary =>
          (hunary ⟨ts, a⟩).imp fun used id b h =>
            (⟨U, hU, h⟩ : ∃ U, phrase = some U ∧ Spelt (Argument here U) used id b)) ?_
      rintro used id u _ ⟨U, hU, hid⟩
      refine .rejectRegion fun hregion => ?_
      obtain ⟨tree, hoperand, hspells⟩ := hid.whole hregion
      refine .addNode ⟨hspells.lt_size, hregion⟩ trivial ⟨_, .whole ?_, hspells.add_sign⟩
      simpa using UnaryAt.sign hU hsign.1 hmem hoperand
    · exact factor_outcome hlevel t ts a

theorem unary_outcome (n : Nat) (s : Parse) :
    Outcome here all (Spelt (Argument here (Unary here n))) s (unary here n s) := by
  induction n generalizing s with
  | zero => exact unaryAt_outcome (by simp [Deeper]) s
  | succ n ih =>
    refine unaryAt_outcome ?_ s
    rintro _ ⟨⟩
    exact ⟨_, rfl, ih⟩

theorem parseTokens_ended (here : Position) (tokens : List Token) (a : Arena) :
    Ended here tokens
      (fun _ id b => ∃ t, Writes here tokens t ∧ b.Spells id t ∧ ¬ b.RegionAt id) ⟨tokens, a⟩
      (parseTokens here ⟨tokens, a⟩) := by
  have hsum : Outcome here tokens (Spelt (Argument here (Writes here))) ⟨tokens, a⟩
      (expression (unary here maxLevels) ⟨tokens, a⟩) :=
    expression_outcome (unary_outcome maxLevels) _
  obtain ⟨hgrows, hwell, hcalls, ⟨used, htokens, hgood⟩, hstops⟩ := hsum (List.Subset.refl _)
  rcases hu : expression (unary here maxLevels) ⟨tokens, a⟩ with ⟨result, rest, b⟩
  rw [hu] at hgrows hwell hcalls htokens hgood hstops
  unfold parseTokens
  cases result with
  | error e =>
    rw [Action.bind_error hu]
    exact ⟨hgrows, hwell, hcalls, ⟨used, htokens, by simp⟩, by simpa using hstops⟩
  | ok id =>
    rw [Action.bind_ok hu]
    refine Outcome.after (u := ⟨rest, b⟩) used htokens hgrows hwell hcalls ?_
      (List.Subset.refl _)
    cases rest with
    | cons t ts => exact .facing List.mem_cons_self rfl rfl
    | nil =>
      refine .rejectRegion fun hregion => .ok ?_
      obtain ⟨t, hwrites, hspells⟩ := (hgood id rfl).whole hregion
      obtain rfl : tokens = used := by simpa using htokens
      exact ⟨t, hwrites, hspells, hregion⟩

end

section

variable {formula : String} {here : Position} {a b : Arena}

theorem parse_grows (h : (parse formula here a).2 = b) : a.Grows b := by
  subst h
  unfold parse
  cases scan formula with
  | error f => exact .refl a
  | ok tokens => exact (parseTokens_ended here tokens a).grows

theorem parse_wellFormed (h : (parse formula here a).2 = b) (ha : a.WellFormed) :
    b.WellFormed := by
  subst h
  unfold parse
  cases scan formula with
  | error f => exact ha
  | ok tokens => exact (parseTokens_ended here tokens a).wellFormed ha

theorem scan_subset {tokens : List Token} (h : scan formula = .ok tokens) {t : Token}
    (ht : t ∈ tokens) : t.text.toList ⊆ formula.toList := by
  obtain ⟨c, rest, n, hsuffix, -, htext⟩ := scanFrom_mem h ht
  rw [htext]
  have hslice := List.cons_subset_cons c (List.take_subset n rest)
  exact List.Subset.trans hslice (List.Subset.trans hsuffix.subset (Text.trim_subset _))

theorem parse_calls (h : (parse formula here a).2 = b) {id : NodeId} {name : String}
    {arguments : List NodeId} (hn : b.node? id = some (.call name arguments)) :
    a.node? id = some (.call name arguments) ∨ name.toList ⊆ formula.toList := by
  subst h
  unfold parse at hn
  cases hscan : scan formula with
  | error f =>
    rw [hscan] at hn
    exact .inl hn
  | ok tokens =>
    rw [hscan] at hn
    obtain hold | ⟨t, ht, rfl⟩ := (parseTokens_ended here tokens a).calls id _ hn
    · exact .inl hold
    · exact .inr (scan_subset hscan ht)

theorem parse_quotes {f : Fault} (h : (parse formula here a).1 = .error (.fault f)) :
    ∀ quoted ∈ f.quotes, quoted ⊆ formula.toList := by
  unfold parse at h
  cases hscan : scan formula with
  | error f' =>
    rw [hscan] at h
    cases h
    exact (scan_error hscan).2
  | ok tokens =>
    rw [hscan] at h
    obtain ⟨f', he, -, hquotes⟩ | ⟨_, _, _, he, -⟩ :=
      (parseTokens_ended here tokens a).stops _ h
    · cases he
      intro quoted hq
      obtain ⟨t, ht, rfl⟩ := hquotes quoted hq
      exact scan_subset hscan ht
    · cases he

/-- A formula that is parsed is written by its tokens, and is no region. -/
theorem parse_ok {root : NodeId} (h : parse formula here a = (.ok root, b)) :
    ∃ tokens t, scan formula = .ok tokens ∧ Writes here tokens t ∧ b.Spells root t ∧
      ¬ b.RegionAt root := by
  unfold parse at h
  cases hscan : scan formula with
  | error f => simp [hscan] at h
  | ok tokens =>
    obtain ⟨-, -, -, ⟨used, -, hgood⟩, -⟩ := parseTokens_ended here tokens a
    rw [hscan] at h
    obtain ⟨hroot, rfl⟩ := Prod.ext_iff.1 h
    obtain ⟨t, hwrites, hspells⟩ := hgood root hroot
    exact ⟨tokens, t, rfl, hwrites, hspells⟩

/-- A formula that cannot be parsed is cut or parsed with a fault of that kind, or has a token that
cannot be read. -/
theorem parse_error {e : Stop} (h : parse formula here a = (.error e, b)) :
    (∃ f, e = .fault f ∧ (scan formula = .error f ∧ f.category = .token ∨
      (∃ tokens, scan formula = .ok tokens) ∧ f.category = .parse)) ∨
    ∃ tokens t c, scan formula = .ok tokens ∧ t ∈ tokens ∧ e = .breakdown c ∧
      Unreadable here t c := by
  unfold parse at h
  cases hscan : scan formula with
  | error f =>
    rw [hscan] at h
    cases h
    exact .inl ⟨f, rfl, .inl ⟨rfl, (scan_error hscan).1⟩⟩
  | ok tokens =>
    obtain ⟨-, -, -, -, hstops⟩ := parseTokens_ended here tokens a
    rw [hscan] at h
    obtain ⟨he, rfl⟩ := Prod.ext_iff.1 h
    rcases hstops e he with ⟨f, rfl, hf, -⟩ | ⟨t, ht, c, rfl, hc⟩
    · exact .inl ⟨f, rfl, .inr ⟨⟨tokens, rfl⟩, hf⟩⟩
    · exact .inr ⟨tokens, t, c, rfl, ht, rfl, hc⟩

end

end GridCalc.Formula
