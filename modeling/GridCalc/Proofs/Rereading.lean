import GridCalc.Proofs.Accepting
import GridCalc.Proofs.Loading
import GridCalc.Proofs.Regrouping
import GridCalc.Proofs.Spelling

/-!
# Written formulas that are read again

A formula that is parsed, with finite numbers and with references to positions that have a name,
can be written: its names are words, and a number in it has no sign of its own. What is written is
parsed wherever it stands, as the formula with its chains regrouped, so a straight formula keeps its
value in every table.
-/

set_option autoImplicit false

namespace GridCalc
open Text

/-- Every number of the formula is finite, and every position is one with a name. -/
inductive Tree.InBounds : Tree → Prop
  | number {x : Float} {negative : Bool} {m : Nat} {e : Int} :
      Decimal.value x = .finite negative m e → InBounds (.number x)
  | relative {p : Position} : p.IsWritable → InBounds (.relative p)
  | absolute {p : Position} : p.IsWritable → InBounds (.absolute p)
  | region {r : Region} : r.start.IsWritable → r.finish.IsWritable → InBounds (.region r)
  | binary {op : Operator} {left right : Tree} : InBounds left → InBounds right →
      InBounds (.binary op left right)
  | sign {op : Operator} {operand : Tree} : InBounds operand → InBounds (.sign op operand)
  | call {name : String} {arguments : List Tree} : (∀ t ∈ arguments, InBounds t) →
      InBounds (.call name arguments)

structure Token.IsCut (t : Token) : Prop where
  unsigned : t.kind = .number → ∀ {x negative m e}, Decimal.read? t.text = some x →
    Decimal.value x = .finite negative m e → negative = false
  word : t.kind = .name → IsWord t.text.toList

namespace Formula

variable {place n : Nat} {c : Char} {cs : List Char}

theorem isWord_of_lexeme (hblank : isBlank c = false) (h : lexeme place c cs = .ok (.name, n)) :
    IsWord (c :: cs.take n) := by
  unfold lexeme at h
  split at h
  · obtain ⟨_, _, heq⟩ := map_ok h
    cases heq
  · next hnumber =>
    split at h
    · cases h
    · next haway =>
      split at h
      · next hletter =>
        obtain ⟨kind, hkind, heq⟩ := map_ok h
        cases heq
        rw [take_takeWhile]
        unfold wordKind at hkind
        split at hkind
        · cases hkind
        · next hv =>
          refine .mk hblank (by simpa using hnumber) (by simpa using haway) hletter ?_
            (by simpa using hv)
          exact List.all_eq_true.1 List.all_takeWhile
      · split at h
        · next hsymbol =>
          cases h
          exact absurd rfl (symbolKind?_ne hsymbol).2.2.2
        · cases h

theorem isSign_of_lexeme (h : lexeme place c cs = .ok (.number, n)) : isSign c = false := by
  have hsigns : ∀ c ∈ ['+', '-'], isDigit c = false :=
    List.all_iff_forall_prop.1 (by decide +kernel)
  have hdigit : ∀ c, isDigit c → isSign c = false := by
    intro c hc
    cases hsign : isSign c with
    | false => rfl
    | true => simp [hsigns c (by simpa [isSign] using hsign)] at hc
  cases lexeme_ok h with
  | number hnumber => exact hnumber.isSign_head hdigit c rfl
  | symbol hsymbol => exact absurd rfl (symbolKind?_ne hsymbol).1

theorem isCut_of_mem {formula : String} {tokens : List Token} {t : Token}
    (h : scan formula = .ok tokens) (ht : t ∈ tokens) : t.IsCut := by
  obtain ⟨place, c, cs, n, -, hblank, hlexeme, htext⟩ := scanFrom_slice h ht
  refine ⟨fun hkind x negative m e hread hx => ?_, fun hkind => ?_⟩
  · rw [hkind] at hlexeme
    exact Decimal.unsigned_of_read? htext hblank (isSign_of_lexeme hlexeme) hread hx
  · rw [hkind] at hlexeme
    rw [htext]
    exact isWord_of_lexeme hblank hlexeme

def Yields (U : Phrase) : Prop :=
  ∀ ⦃ts t⦄, U ts t → (∀ x ∈ ts, x.IsCut) → t.InBounds → t.Writable

variable {here : Position} {U : Phrase} {symbols : List String} {level : Option Phrase}

theorem Chain.yields (hU : Yields U) (hsymbols : ∀ s ∈ symbols, s ∈ ["+", "-", "*", "/"]) :
    Yields (Chain U symbols) := by
  intro ts t h hcut ht
  induction h with
  | operand h => exact hU h hcut ht
  | more _ _ hsymbol hr ih =>
    cases ht with
    | binary hleft hright =>
      exact .binary (Operator.isArithmetic_of_mem (hsymbols _ hsymbol))
        (ih (fun x hx => hcut x (by simp [hx])) hleft)
        (hU hr (fun x hx => hcut x (by simp [hx])) hright)

theorem Sum.yields (hU : Yields U) : Yields (Sum U) :=
  Chain.yields (Chain.yields hU (by decide)) (by decide)

theorem Argument.yields (hU : Yields U) : Yields (Argument here (Sum U)) := by
  intro ts t h hcut ht
  cases h with
  | whole h => exact Sum.yields hU h hcut ht
  | region =>
    cases ht with
    | region hp hq => exact .region hp hq

theorem Arguments.yields (hU : Yields U) {ts : List Token} {trees : List Tree}
    (h : Arguments (Argument here (Sum U)) ts trees) (hcut : ∀ x ∈ ts, x.IsCut)
    (ht : ∀ t ∈ trees, t.InBounds) : trees ≠ [] ∧ ∀ t ∈ trees, t.Writable := by
  induction h with
  | last h _ =>
    have := Argument.yields hU h (fun x hx => hcut x (by simp [hx])) (ht _ (by simp))
    exact ⟨by simp, by simpa using this⟩
  | next h _ _ ih =>
    have hfirst := Argument.yields hU h (fun x hx => hcut x (by simp [hx])) (ht _ (by simp))
    have hrest := ih (fun x hx => hcut x (by simp [hx])) fun t ht' => ht t (by simp [ht'])
    exact ⟨by simp, List.forall_mem_cons.2 ⟨hfirst, hrest.2⟩⟩

theorem UnaryAt.yields (hlevel : ∀ U, level = some U → Yields U) : Yields (UnaryAt here level) := by
  intro ts t h hcut ht
  cases h with
  | number hkind hread =>
    cases ht with
    | number hx =>
      obtain rfl := (hcut _ (by simp)).unsigned hkind hread hx
      exact .number hx
  | relative =>
    cases ht with
    | relative hp => exact .relative hp
  | absolute =>
    cases ht with
    | absolute hp => exact .absolute hp
  | sign hU _ hsymbol h =>
    cases ht with
    | sign ht =>
      have hsymbols : ∀ s ∈ looseSymbols, s ∈ ["+", "-", "*", "/"] := by decide
      exact .sign (Operator.isArithmetic_of_mem (hsymbols _ hsymbol))
        (hlevel _ hU h (fun x hx => hcut x (by simp [hx])) ht)
  | bracket hU _ _ h => exact Sum.yields (hlevel _ hU) h (fun x hx => hcut x (by simp [hx])) ht
  | call hU hname _ h =>
    cases ht with
    | call ht =>
      obtain ⟨hne, harguments⟩ :=
        Arguments.yields (hlevel _ hU) h (fun x hx => hcut x (by simp [hx])) ht
      exact .call ((hcut _ (by simp)).word hname) hne harguments

theorem Unary.yields (here : Position) (n : Nat) : Yields (Unary here n) := by
  induction n with
  | zero => exact UnaryAt.yields (by simp)
  | succ n ih =>
    refine UnaryAt.yields ?_
    rintro _ ⟨⟩
    exact ih

theorem writable_of_writes {formula : String} {tokens : List Token} {t : Tree}
    (hscan : scan formula = .ok tokens) (h : Writes here tokens t) (ht : t.InBounds) : t.Writable :=
  Sum.yields (Unary.yields here maxLevels) h (fun _ hx => isCut_of_mem hscan hx) ht

variable {formula : String} {a b : Arena} {root : NodeId}

/-- A formula that is parsed, and is in bounds, is written, and what is written is parsed wherever
it stands, as the formula with its chains regrouped. That is the same formula just if it is
straight, and then it comes to the same on every table, with every shift. -/
theorem written_reads (h : parse formula here a = (.ok root, b)) :
    ∃ t, b.Spells root t ∧ (t.regrouped = t ↔ t.Straight) ∧
      (t.InBounds → ∃ text, b.written root = .ok text ∧ ∀ o, ∃ root' c,
        parse text o b = (.ok root', c) ∧ b.Grows c ∧ c.Spells root' t.regrouped ∧
        (t.Straight → ∀ ctx shift s, c.Grows s.grid.arena →
          Evaluation.formulaValue ctx root' shift s =
            Evaluation.formulaValue ctx root shift s)) := by
  obtain ⟨tokens, t, hscan, hwrites, hspells, -⟩ := parse_ok h
  refine ⟨t, hspells, ⟨Tree.straight_of_regrouped, fun ht => ht.regrouped⟩, fun hbounds => ?_⟩
  have ht := writable_of_writes hscan hwrites hbounds
  refine ⟨t.text, writtenWithin_spells hspells ht (Nat.lt_succ_of_lt hspells.lt_size), fun o => ?_⟩
  obtain ⟨words, hwords, hshows⟩ := scan_text ht
  obtain ⟨root', c, hparse, hgrows, hspells'⟩ :=
    parse_writes (a := b) hwords (writes_regrouped (o := o) hwrites ht hshows)
  refine ⟨root', c, hparse, hgrows, hspells', fun hstraight ctx shift s hs => ?_⟩
  have hasks := (Evaluation.settle_settles ctx).asks
  have hold := (hspells.grows hgrows).grows hs
  rw [hstraight.regrouped] at hspells'
  exact (Evaluation.rootValue_same hasks (hspells'.grows hs) hold s rfl).1

def scaledDifference : Arena :=
  ⟨#[.number 2.0, .number 1.0, .absolute ⟨0, 1⟩, .binary .subtract 1 2, .binary .multiply 0 3]⟩

theorem written_reads_difference :
    parse "2*(1-$B1)" ⟨0, 0⟩ .empty = (.ok 4, scaledDifference) ∧
      ∃ text, scaledDifference.written 4 = .ok text ∧ ∀ o, ∃ root' c,
        parse text o scaledDifference = (.ok root', c) ∧ ∀ ctx shift s, c.Grows s.grid.arena →
          Evaluation.formulaValue ctx root' shift s = Evaluation.formulaValue ctx 4 shift s := by
  have hparse : parse "2*(1-$B1)" ⟨0, 0⟩ .empty = (.ok 4, scaledDifference) := by decide +kernel
  have htwo : Decimal.value 2.0 = .finite false (2 ^ 52) (-51) := by decide +kernel
  have hone : Decimal.value 1.0 = .finite false (2 ^ 52) (-52) := by decide +kernel
  obtain ⟨t, ht, -, hreads⟩ := written_reads hparse
  obtain rfl := ht.unique (.binary rfl (by decide) (by decide) (.number rfl)
    (.binary rfl (by decide) (by decide) (.number rfl) (.absolute rfl)))
  have hbounds : Tree.InBounds (.binary .multiply (.number 2.0)
      (.binary .subtract (.number 1.0) (.absolute ⟨0, 1⟩))) :=
    .binary (.number htwo) (.binary (.number hone)
      (.absolute ⟨by decide, by decide, by decide, by decide⟩))
  have hstraight : Tree.Straight (.binary .multiply (.number 2.0)
      (.binary .subtract (.number 1.0) (.absolute ⟨0, 1⟩))) := by
    refine .binary (.number _) (.binary (.number _) (.absolute _) ?_) ?_
    · rintro _ _ _ ⟨⟩
    · rintro _ _ _ ⟨⟩
      decide
  obtain ⟨text, hwritten, hall⟩ := hreads hbounds
  refine ⟨hparse, text, hwritten, fun o => ?_⟩
  obtain ⟨root', c, hparse', -, -, hsame⟩ := hall o
  exact ⟨root', c, hparse', hsame hstraight⟩

def quotient : Arena :=
  ⟨#[.number 8.0, .number 4.0, .number 2.0, .binary .divide 1 2, .binary .divide 0 3]⟩

def quotients : Grid :=
  ⟨1, 1, #v[#v[⟨.empty, .done⟩]], ⟨quotient.nodes ++
    #[.number 8.0, .number 4.0, .binary .divide 5 6, .number 2.0, .binary .divide 7 8]⟩⟩

/-- A quotient that is divided by loses its brackets, and with them its value. -/
theorem written_disagrees :
    parse "8/(4/2)" ⟨0, 0⟩ .empty = (.ok 4, quotient) ∧
      quotient.written 4 = .ok "8 / 4 / 2" ∧
      parse "8 / 4 / 2" ⟨0, 0⟩ quotient = (.ok 9, quotients.arena) ∧
      (Evaluation.formulaValue ⟨100, .builtin⟩ 4 .origin { grid := quotients }).1 = .ok 4.0 ∧
      (Evaluation.formulaValue ⟨100, .builtin⟩ 9 .origin { grid := quotients }).1 = .ok 1.0 := by
  decide +kernel

end Formula

end GridCalc
