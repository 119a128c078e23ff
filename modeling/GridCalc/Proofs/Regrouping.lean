import GridCalc.Proofs.Chains
import GridCalc.Proofs.Cutting

/-!
# What a written formula is read as

The words of a written formula derive it with its chains regrouped, at no more levels than the
words it was read from: the brackets that are left out take levels away, and none are put where
there was neither a bracket nor a sign before.
-/

set_option autoImplicit false

namespace GridCalc
open Formula

open GridCalc.Tree

namespace Formula

inductive Run (operand : Phrase) (symbols : List String) : Phrase
  | operand {ts : List Token} {t : Tree} : operand ts t → t.isChain symbols = false →
      Run operand symbols ts t
  | more {ls rs : List Token} {op : Token} {left right : Tree} : Run operand symbols ls left →
      op.kind = .operator → op.text ∈ symbols → operand rs right →
      Run operand symbols (ls ++ op :: rs) (.binary (.ofSymbol op.text) left right)

variable {R : Phrase} {symbols : List String} {ls rs ts : List Token} {left right t : Tree}
  {op : Token}

theorem Run.chain (h : Run R symbols ts t) : Chain R symbols ts t := by
  induction h with
  | operand h _ => exact .operand h
  | more _ hkind hsymbol hr ih => exact .more ih hkind hsymbol hr

theorem Run.mono {S : Phrase} (hRS : ∀ {ts t}, R ts t → S ts t) (h : Run R symbols ts t) :
    Run S symbols ts t := by
  induction h with
  | operand h hchain => exact .operand (hRS h) hchain
  | more _ hkind hsymbol hr ih => exact .more ih hkind hsymbol (hRS hr)

theorem Run.joined (hl : Run R symbols ls left) (hkind : op.kind = .operator)
    (hsymbol : op.text ∈ symbols)
    (hjoins : ∀ o, (Operator.ofSymbol op.text).joins o = symbols.contains o.symbol)
    (hr : Run R symbols rs right) :
    Run R symbols (ls ++ op :: rs) (joined (.ofSymbol op.text) left right) := by
  induction hr with
  | @operand rs t ht hchain =>
    have hleaf : Tree.joined (.ofSymbol op.text) left t = .binary (.ofSymbol op.text) left t := by
      cases t with
      | binary o a b => rw [Tree.joined, hjoins, if_neg (by simpa [isChain] using hchain)]
      | _ => rfl
    rw [hleaf]
    exact .more hl hkind hsymbol ht
  | @more rs₁ rs₂ o a b _ hokind hosymbol hb ih =>
    rw [Tree.joined, hjoins, if_pos (by simpa [Operator.symbol_ofSymbol] using hosymbol),
      ← List.cons_append, ← List.append_assoc]
    exact .more ih hokind hosymbol hb

/-- The words of the written formula derive it: as a sum, as a product unless it is a sum, and as a
signed factor unless it is an operation. -/
structure Fits (U : Phrase) (t : Tree) : Prop where
  sum : ∀ {ts}, Shows ts t.pieces → Run (Product U) looseSymbols ts t.regrouped
  product : ∀ {ts}, t.isChain looseSymbols = false → Shows ts t.pieces →
    Run U tightSymbols ts t.regrouped
  unary : ∀ {ts}, t.isBinary = false → Shows ts t.pieces → U ts t.regrouped

def Encloses (U : Phrase) (t : Tree) : Prop :=
  ∀ {ts}, Shows ts (enclosed true t.pieces) → U ts t.regrouped

variable {here o : Position} {U V : Phrase} {symbols : List String} {ts : List Token} {t : Tree}

theorem isBinary_of_isChain (h : t.isChain symbols) : t.isBinary := by
  cases t <;> first | rfl | cases h

theorem isChain_of_not_isBinary (h : t.isBinary = false) (symbols : List String) :
    t.isChain symbols = false := by
  cases t <;> first | rfl | cases h

theorem Fits.of_unary (ht : t.isBinary = false)
    (h : ∀ {ts}, Shows ts t.pieces → U ts t.regrouped) : Fits U t := by
  have hproduct : ∀ {ts}, Shows ts t.pieces → Run U tightSymbols ts t.regrouped := fun hts =>
    .operand (h hts) (by rw [isChain_regrouped (.inl rfl), isChain_of_not_isBinary ht])
  refine ⟨fun hts => .operand (hproduct hts).chain ?_, fun _ => hproduct, fun _ => h⟩
  rw [isChain_regrouped (.inr rfl), isChain_of_not_isBinary ht]

theorem Chain.mono (hUV : ∀ {ts t}, U ts t → V ts t) (h : Chain U symbols ts t) :
    Chain V symbols ts t := by
  induction h with
  | operand h => exact .operand (hUV h)
  | more _ hkind hsymbol hr ih => exact .more ih hkind hsymbol (hUV hr)

theorem Fits.mono (hUV : ∀ {ts t}, U ts t → V ts t) (h : Fits U t) : Fits V t :=
  ⟨fun hts => (h.sum hts).mono (Chain.mono hUV), fun ht hts => (h.product ht hts).mono hUV,
    fun ht hts => hUV (h.unary ht hts)⟩

/-- What the second phrase is to be when formulas of the first are written. -/
def Rewrites (U V : Phrase) : Prop :=
  ∀ ⦃ts t⦄, U ts t → t.Writable → Fits V t ∧ (t.isBinary → Encloses V t)

theorem shows_product (h : Fits V t) (henclosed : t.isChain looseSymbols → Encloses V t)
    (hts : Shows ts (enclosed (t.isChain looseSymbols) t.pieces)) :
    Run V tightSymbols ts t.regrouped := by
  cases hloose : t.isChain looseSymbols with
  | false =>
    rw [hloose] at hts
    exact h.product hloose hts
  | true =>
    rw [hloose] at hts
    refine .operand (henclosed hloose hts) ?_
    rw [isChain_regrouped (.inl rfl)]
    cases t with
    | binary op l r =>
      have hop : op.symbol ∈ looseSymbols := List.contains_iff_mem.1 hloose
      simpa [isChain] using fun h => mem_symbols_exclusive h hop
    | _ => rfl

theorem product_fits (hU : Rewrites U V) {ts₀ : List Token} (h : Product U ts₀ t)
    (ht : t.Writable) : Fits V t ∧ (t.isChain looseSymbols → Encloses V t) := by
  induction h with
  | operand h =>
    obtain ⟨hfits, henclosed⟩ := hU h ht
    refine ⟨hfits, fun hloose => henclosed ?_⟩
    cases hbinary : Tree.isBinary _ with
    | true => rfl
    | false => rw [isChain_of_not_isBinary hbinary] at hloose; cases hloose
  | @more ls rs op left right _ hkind hsymbol hr ih =>
    obtain ⟨hleft, hright⟩ := ht.operands
    obtain ⟨hfits, henclosed⟩ := ih hleft
    obtain ⟨hfits', henclosed'⟩ := hU hr hright
    have hjoins := Operator.joins_of_tight hsymbol
    -- Sums are enclosed on both sides, so what stands bare on the right is a factor or goes on as
    -- a product.
    have hrun : ∀ {ts}, Shows ts (Tree.pieces (.binary (.ofSymbol op.text) left right)) →
        Run V tightSymbols ts (Tree.regrouped (.binary (.ofSymbol op.text) left right)) := by
      intro ts hts
      obtain ⟨ls', op', rs', rfl, hls, hkind', htext, hrs⟩ := hts.binary
      rw [brackets, if_pos (by simpa [Operator.symbol_ofSymbol] using hsymbol)] at hls hrs
      rw [Tree.regrouped, ← htext]
      refine Run.joined (shows_product hfits henclosed hls) hkind' (htext ▸ hsymbol)
        (htext ▸ hjoins) (shows_product hfits' (fun h => henclosed' ?_) hrs)
      exact isBinary_of_isChain h
    have hchain : Tree.isChain looseSymbols (.binary (.ofSymbol op.text) left right) = false := by
      simpa [isChain, Operator.symbol_ofSymbol] using mem_symbols_exclusive hsymbol
    refine ⟨⟨fun hts => .operand (hrun hts).chain ?_, fun _ => hrun, by simp [Tree.isBinary]⟩,
      fun h => by rw [hchain] at h; cases h⟩
    rw [isChain_regrouped (.inr rfl), hchain]

theorem sum_fits (hU : Rewrites U V) {ts₀ : List Token} (h : Sum U ts₀ t) (ht : t.Writable) :
    Fits V t := by
  induction h with
  | operand h => exact (product_fits hU h ht).1
  | @more ls rs op left right _ hkind hsymbol hr ih =>
    obtain ⟨hleft, hright⟩ := ht.operands
    obtain ⟨hfits, henclosed⟩ := product_fits hU hr hright
    have hloose : Tree.isChain looseSymbols (.binary (.ofSymbol op.text) left right) = true := by
      simpa [isChain, Operator.symbol_ofSymbol] using hsymbol
    refine ⟨fun hts => ?_, fun h => (by rw [hloose] at h; cases h), by simp [Tree.isBinary]⟩
    have hnot : (Operator.ofSymbol op.text).symbol ∉ tightSymbols := by
      rw [Operator.symbol_ofSymbol]
      exact fun h => mem_symbols_exclusive h hsymbol
    obtain ⟨ls', op', rs', rfl, hls, hkind', htext, hrs⟩ := hts.binary
    rw [brackets, if_neg (by simpa using hnot)] at hls hrs
    rw [Tree.regrouped, ← htext]
    have hcases : op'.text = "+" ∨ op'.text = "-" := by
      rw [htext]
      simpa [looseSymbols] using hsymbol
    have hright : op'.text = "-" → Product V rs' right.regrouped := by
      intro hminus
      rw [← htext, hminus] at hrs
      exact (shows_product hfits henclosed hrs).chain
    -- A sum that is added goes on as a chain; one that is subtracted is enclosed.
    rcases hcases with hplus | hminus
    · refine Run.joined ((ih hleft).sum hls) hkind' (htext ▸ hsymbol) ?_ (hfits.sum ?_)
      · rw [hplus]
        exact Operator.joins_add
      · rw [← htext, hplus] at hrs
        exact hrs
    · rw [joined_of_joins fun o => (by rw [hminus]; exact Operator.joins_subtract o)]
      exact .more ((ih hleft).sum hls) hkind' (htext ▸ hsymbol) (hright hminus)

theorem meant_cell {x : Token} {p : Position} (hp : p.IsWritable) (hkind : x.kind = .cell)
    (htext : x.text.toList = p.letters ++ p.digits) : Meant o x p := by
  refine .cell hkind ?_
  rw [← String.ofList_toList (s := x.text), htext]
  exact hp.ofName?

theorem argument_rewrites (hU : Rewrites U V) {ts₀ : List Token} (h : Argument here (Sum U) ts₀ t)
    (ht : t.Writable) (hts : Shows ts t.pieces) : Argument o (Sum V) ts t.regrouped := by
  cases h with
  | whole h => exact .whole ((sum_fits hU h ht).sum hts).chain
  | @region first colon last p q _ _ _ =>
    cases ht with
    | region hp hq =>
      rw [Tree.pieces] at hts
      obtain ⟨x, us, rfl, hx, hxtext, hus⟩ := hts.cons
      obtain ⟨colon, vs, rfl, hcolon, -, hvs⟩ := hus.cons
      obtain ⟨y, rfl, hy, hytext⟩ := hvs.single
      rw [Tree.regrouped]
      exact .region (meant_cell hp hx hxtext) hcolon (meant_cell hq hy hytext)

theorem arguments_rewrites (hU : Rewrites U V) {ts₀ : List Token} {trees : List Tree}
    (h : Arguments (Argument here (Sum U)) ts₀ trees) (ht : ∀ t ∈ trees, t.Writable)
    (hts : Shows ts (argumentPieces trees ++ [.last])) :
    Arguments (Argument o (Sum V)) ts (trees.map Tree.regrouped) := by
  induction h generalizing ts with
  | @last ts₀ t close h _ =>
    rw [argumentPieces] at hts
    obtain ⟨us, vs, rfl, hus, hvs⟩ := hts.append
    obtain ⟨close', rfl, hclose, -⟩ := hvs.single
    exact .last (argument_rewrites hU h (ht t (by simp)) hus) hclose
  | @next ts₀ us₀ t rest comma h _ hrest ih =>
    obtain ⟨t', rest', rfl⟩ : ∃ t' rest', rest = t' :: rest' := by
      cases hrest with
      | last => exact ⟨_, _, rfl⟩
      | next => exact ⟨_, _, rfl⟩
    have hpieces : argumentPieces (t :: t' :: rest') ++ [.last] =
        t.pieces ++ .comma :: .blank :: (argumentPieces (t' :: rest') ++ [.last]) := by
      rw [argumentPieces]
      simp
    rw [hpieces] at hts
    obtain ⟨us, vs, rfl, hus, hvs⟩ := hts.append
    obtain ⟨comma', ws, rfl, hcomma, -, hws⟩ := hvs.cons
    exact .next (argument_rewrites hU h (ht t (by simp)) hus) hcomma
      (ih (fun x hx => ht x (List.mem_cons_of_mem _ hx)) hws.blank)

def Aligned (o : Position) (level level' : Option Phrase) : Prop :=
  ∀ U, level = some U → ∃ V, level' = some V ∧ Rewrites U V ∧
    ∀ {ts t}, V ts t → UnaryAt o level' ts t

theorem unaryAt_rewrites {level level' : Option Phrase} (hlevel : Aligned o level level') :
    Rewrites (UnaryAt here level) (UnaryAt o level') := by
  intro ts₀ t h ht
  have hleaf : ∀ {t : Tree}, t.isBinary = false →
      (∀ {ts}, Shows ts t.pieces → UnaryAt o level' ts t.regrouped) →
      Fits (UnaryAt o level') t ∧ (t.isBinary → Encloses (UnaryAt o level') t) := by
    intro t hbinary h
    exact ⟨.of_unary hbinary h, fun h => by rw [hbinary] at h; cases h⟩
  cases h with
  | @number _ x _ _ =>
    cases ht with
    | number hx =>
      refine hleaf rfl fun hts => ?_
      rw [Tree.pieces] at hts
      obtain ⟨y, rfl, hkind, htext⟩ := hts.single
      rw [Tree.regrouped]
      exact .number hkind (by rw [String.toList_inj.1 htext, Decimal.read?_numeral hx])
  | relative =>
    cases ht with
    | relative hp =>
      refine hleaf rfl fun hts => ?_
      rw [Tree.pieces] at hts
      obtain ⟨y, rfl, hkind, htext⟩ := hts.single
      rw [Tree.regrouped]
      exact .relative (meant_cell hp hkind htext)
  | absolute =>
    cases ht with
    | absolute hp =>
      refine hleaf rfl fun hts => ?_
      rw [Tree.pieces] at hts
      obtain ⟨dollar, us, rfl, hdollar, -, hus⟩ := hts.cons
      obtain ⟨y, rfl, hkind, htext⟩ := hus.single
      rw [Tree.regrouped]
      exact .absolute hdollar (meant_cell hp hkind htext)
  | @sign sign us₀ operand U hU _ hsymbol h =>
    obtain ⟨V, rfl, hV, -⟩ := hlevel U hU
    cases ht with
    | sign _ hoperand =>
      obtain ⟨hfits, henclosed⟩ := hV h hoperand
      refine hleaf rfl fun hts => ?_
      rw [Tree.pieces] at hts
      obtain ⟨op, us, rfl, hkind, htext, hus⟩ := hts.cons
      rw [Operator.symbol_ofSymbol, String.toList_inj] at htext
      have hinner : V us operand.regrouped := by
        cases hbinary : operand.isBinary with
        | false =>
          rw [hbinary] at hus
          exact hfits.unary hbinary hus
        | true =>
          rw [hbinary] at hus
          exact henclosed hbinary hus
      rw [Tree.regrouped, ← htext]
      exact .sign rfl hkind (htext ▸ hsymbol) hinner
  | @bracket first last us₀ _ U hU _ _ h =>
    obtain ⟨V, rfl, hV, hmono⟩ := hlevel U hU
    have hfits := sum_fits hV h ht
    refine ⟨hfits.mono hmono, fun _ ts hts => ?_⟩
    obtain ⟨first', us, last', rfl, hfirst, hlast, hus⟩ := hts.inside
    exact .bracket rfl hfirst hlast (hfits.sum hus).chain
  | @call name first us₀ arguments U hU _ _ h =>
    obtain ⟨V, rfl, hV, -⟩ := hlevel U hU
    cases ht with
    | call _ _ harguments =>
      refine hleaf rfl fun hts => ?_
      rw [Tree.pieces] at hts
      obtain ⟨name', us, rfl, hname, htext, hus⟩ := hts.cons
      obtain ⟨first', vs, rfl, hfirst, -, hvs⟩ := Shows.cons hus
      rw [String.toList_inj] at htext
      rw [Tree.regrouped, ← htext]
      exact .call rfl hname hfirst (arguments_rewrites hV h harguments hvs)

theorem Arguments.mono {argument argument' : Phrase}
    (h : ∀ {ts t}, argument ts t → argument' ts t) {trees : List Tree}
    (harguments : Arguments argument ts trees) : Arguments argument' ts trees := by
  induction harguments with
  | last ht hclose => exact .last (h ht) hclose
  | next ht hcomma _ ih => exact .next (h ht) hcomma ih

theorem Sum.mono (hUV : ∀ {ts t}, U ts t → V ts t) (h : Sum U ts t) : Sum V ts t :=
  Chain.mono (Chain.mono hUV) h

theorem UnaryAt.mono {level level' : Option Phrase}
    (hlevel : ∀ U, level = some U → ∃ V, level' = some V ∧ ∀ {ts t}, U ts t → V ts t)
    (h : UnaryAt here level ts t) : UnaryAt here level' ts t := by
  cases h with
  | number hkind hx => exact .number hkind hx
  | relative hp => exact .relative hp
  | absolute hkind hp => exact .absolute hkind hp
  | sign hU hkind hsymbol h =>
    obtain ⟨V, hV, hUV⟩ := hlevel _ hU
    exact .sign hV hkind hsymbol (hUV h)
  | bracket hU hfirst hlast h =>
    obtain ⟨V, hV, hUV⟩ := hlevel _ hU
    exact .bracket hV hfirst hlast (Sum.mono hUV h)
  | call hU hname hfirst h =>
    obtain ⟨V, hV, hUV⟩ := hlevel _ hU
    refine .call hV hname hfirst (h.mono fun ht => ?_)
    cases ht with
    | whole ht => exact .whole (Sum.mono hUV ht)
    | region hp hcolon hq => exact .region hp hcolon hq

theorem Unary.mono {n : Nat} (h : Unary here n ts t) : Unary here (n + 1) ts t := by
  induction n generalizing ts t with
  | zero => exact UnaryAt.mono (by simp) h
  | succ n ih =>
    refine UnaryAt.mono ?_ h
    rintro _ ⟨⟩
    exact ⟨_, rfl, ih⟩

theorem unary_rewrites (here o : Position) (n : Nat) : Rewrites (Unary here n) (Unary o n) := by
  induction n with
  | zero => exact unaryAt_rewrites (by simp [Aligned])
  | succ n ih =>
    refine unaryAt_rewrites ?_
    rintro _ ⟨⟩
    exact ⟨_, rfl, ih, Unary.mono⟩

/-- The words of a written formula, wherever they stand, write it with its chains regrouped. -/
theorem writes_regrouped {ts₀ : List Token} (h : Writes here ts₀ t) (ht : t.Writable)
    (hts : Shows ts t.pieces) : Writes o ts t.regrouped :=
  ((sum_fits (unary_rewrites here o maxLevels) h ht).sum hts).chain

end Formula

end GridCalc
