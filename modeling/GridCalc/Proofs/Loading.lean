import GridCalc.Grid.Reading
import GridCalc.Proofs.Parsing
import GridCalc.Proofs.Scanning

/-!
# Which texts can be read

A bad cell does not keep the others from being read: a malformed formula or clone is read as a
fault. What no cell can hold is a token or a count that is cut as a number or a cell and then cannot
be read as one: with a digit that has no place value, with too many digits, or a cell whose row ends
in no plain digit. Whatever has no such token or count is read.
-/

set_option autoImplicit false

namespace GridCalc
open Text

/-- Whether one of the digits has no place value. -/
def Text.isStray (cs : List Char) : Bool := cs.any fun c => isDigit c && !isDecimal c

def Text.isLong (digits : List Char) : Bool := decide (digitBound < digits.length)

def Text.isMisleadingCount (cs : List Char) : Bool := cs.all isDigit && (isStray cs || isLong cs)

def Token.isLong (t : Token) : Bool :=
  match t.kind with
  | .relative => Text.isLong t.text.toList.tail
  | .cell => Text.isLong (t.text.toList.reverse.takeWhile isPlainDigit)
  | _ => false

/-- Whether the token cannot be read as what it has been cut as. -/
def Token.isMisleading (t : Token) : Bool :=
  t.isLong || match t.kind with
    | .number | .relative => isStray t.text.toList
    | .cell => t.text.toList.getLast?.any fun c => !isPlainDigit c
    | _ => false

def Formula.isMisleading (formula : String) : Bool :=
  match scan formula with
  | .ok tokens => tokens.any Token.isMisleading
  | .error _ => false

def Cell.isMisleading (s : String) : Bool :=
  match s.toList with
  | '=' :: formula => Formula.isMisleading (String.ofList formula)
  | ':' :: c :: count => (Direction.ofChar? c).isSome && isMisleadingCount (trim count)
  | _ => false

def Line.isMisleading (text : List Char) : Bool :=
  let text := trim text
  if mark.isPrefixOf text then isMisleadingCount (trim (text.drop mark.length))
  else (fields '|' text).any fun field => Cell.isMisleading (String.ofList (trim field))

section

variable {cs : List Char}

theorem decimals_of_digits (hdigit : ∀ c ∈ cs, isDigit c) (h : isStray cs = false) :
    Decimals cs := by
  intro c hc
  have hstray := List.any_eq_false.1 h c hc
  simpa [hdigit c hc] using hstray

theorem isLong_eq_false : isLong cs = false ↔ cs.length ≤ digitBound := by
  rw [isLong, decide_eq_false_iff_not, Nat.not_lt]

theorem natural_of_count (hdigit : cs.all isDigit) (hne : cs ≠ [])
    (h : isMisleadingCount cs = false) : ∃ n, natural cs = .ok n := by
  obtain ⟨hstray, hlong⟩ : isStray cs = false ∧ isLong cs = false := by
    simpa [isMisleadingCount, hdigit] using h
  exact (decimals_of_digits (List.all_eq_true.1 hdigit) hstray).natural_ok hne
    (isLong_eq_false.1 hlong)

end

namespace Formula

variable {here : Position} {t : Token} {b : Breakdown}

theorem symbolKind?_ne {c : Char} {kind : TokenKind} (h : symbolKind? c = some kind) :
    kind ≠ .number ∧ kind ≠ .relative ∧ kind ≠ .cell ∧ kind ≠ .name := by
  unfold symbolKind? at h
  split at h <;> cases h <;> simp

theorem read?_number {s : String} (h : NumberText isDigit s.toList)
    (hclear : isStray s.toList = false) : Decimal.read? s ≠ none := by
  have hnumber : NumberText isDecimal s.toList :=
    h.mono fun c hc hdigit => by simpa [hdigit] using List.any_eq_false.1 hclear c hc
  rw [← String.ofList_toList (s := s)]
  apply Option.isSome_iff_ne_none.1
  exact Decimal.read?_isSome (hnumber.takeSign.symm ▸ hnumber)

theorem ofRelative_direction {s : String} {c : Char} {count : List Char} {d : Direction}
    (hs : s.toList = c :: count) (hd : Direction.ofChar? c = some d)
    (hdigit : ∀ x ∈ count, isDigit x)
    (hclear : isStray s.toList = false) (hshort : Text.isLong s.toList.tail = false) :
    ∃ p, here.ofRelative s = .ok p := by
  have hcount : isStray count = false := by
    rw [hs, isStray, List.any_cons, Bool.or_eq_false_iff] at hclear
    exact hclear.2
  unfold Position.ofRelative
  rw [hs]
  simp only [hd]
  split
  · exact ⟨_, rfl⟩
  · next hne =>
    have hdecimals : Decimals count := decimals_of_digits hdigit hcount
    rw [hs, List.tail_cons, isLong_eq_false] at hshort
    obtain ⟨n, hn⟩ := hdecimals.natural_ok hne hshort
    exact ⟨here.move d n, by rw [hdecimals.integer, hn]; rfl⟩

theorem ofName?_cell {s : String}
    (hclear : (s.toList.getLast?.any fun c => !isPlainDigit c) = false)
    (hshort : Text.isLong (s.toList.reverse.takeWhile isPlainDigit) = false) :
    Position.ofName? s ≠ .error b := by
  unfold Position.ofName?
  generalize s.toList = cs at hclear hshort
  dsimp only
  split
  · simp
  · next hcell =>
    have hplain : ∀ c ∈ (cs.reverse.takeWhile isPlainDigit).reverse, isDecimal c := by
      intro c hc
      rw [List.mem_reverse] at hc
      exact isDecimal_of_isPlainDigit (List.all_eq_true.1 List.all_takeWhile c hc)
    have hne : (cs.reverse.takeWhile isPlainDigit).reverse ≠ [] := by
      cases hlast : cs.getLast? with
      | none =>
        rw [List.getLast?_eq_none_iff] at hlast
        simp [hlast, isCellName] at hcell
      | some c =>
        rw [hlast, Option.any_some, Bool.not_eq_false'] at hclear
        rw [List.getLast?_eq_head?_reverse] at hlast
        obtain ⟨rest, hrest⟩ := List.head?_eq_some_iff.1 hlast
        simp [hrest, hclear]
    rw [isLong_eq_false, ← List.length_reverse] at hshort
    obtain ⟨n, hn⟩ := Decimals.natural_ok hplain hne hshort
    rw [hn]
    cases n with
    | zero => simp
    | succ row =>
      dsimp only
      split <;> simp

theorem not_unreadable {formula : String} {tokens : List Token} (h : scan formula = .ok tokens)
    (ht : t ∈ tokens) (hclear : t.isMisleading = false) : ¬ Unreadable here t b := by
  obtain ⟨c, rest, n, -, hlexeme, htext⟩ := scanFrom_mem h ht
  obtain ⟨hshort, hclear⟩ := Bool.or_eq_false_iff.1 hclear
  unfold Token.isLong at hshort
  rintro (⟨hkind, hread⟩ | ⟨hkind, hread⟩ | ⟨hkind, hread⟩)
  · rw [hkind] at hlexeme hclear
    cases hlexeme with
    | number hnumber => exact read?_number (htext ▸ hnumber) hclear hread
    | symbol hc => exact (symbolKind?_ne hc).1 rfl
  · rw [hkind] at hlexeme hclear hshort
    cases hlexeme with
    | relative hd hdigit =>
      obtain ⟨p, hp⟩ : ∃ p, here.ofRelative t.text = .ok p :=
        ofRelative_direction htext hd hdigit hclear hshort
      simp [hp] at hread
    | symbol hc => exact (symbolKind?_ne hc).2.1 rfl
  · rw [hkind] at hclear hshort
    exact ofName?_cell hclear hshort hread

theorem parse_clear {formula : String} (here : Position) (a : Arena)
    (hclear : isMisleading formula = false) :
    (∃ f b, parse formula here a = (.error (.fault f), b)) ∨
      ∃ root b, parse formula here a = (.ok root, b) := by
  rcases hparse : parse formula here a with ⟨result, b⟩
  cases result with
  | ok root => exact .inr ⟨root, b, rfl⟩
  | error e =>
    rcases parse_error hparse with ⟨f, rfl, -⟩ | ⟨tokens, t, c, hscan, ht, rfl, hc⟩
    · exact .inl ⟨f, b, rfl⟩
    · rw [isMisleading, hscan] at hclear
      exact absurd hc (not_unreadable hscan ht (by simpa using List.any_eq_false.1 hclear t ht))

def IsWritten (here : Position) (formula : String) : Prop :=
  ∃ tokens t, scan formula = .ok tokens ∧ Writes here tokens t

end Formula

namespace Cell

inductive Source : List Char → Direction → Nat → Prop
  | next {c : Char} {cs : List Char} {d : Direction} : Direction.ofChar? c = some d →
      trim cs = [] → Source (c :: cs) d 1
  | steps {c : Char} {cs : List Char} {d : Direction} {n : Nat} : Direction.ofChar? c = some d →
      (trim cs).all isDigit → natural (trim cs) = .ok (n + 1) → Source (c :: cs) d (n + 1)

/-- How a cell is understood: what is no formula or no clone is a fault, and what has the form of a
number is a number. -/
structure Understood (p : Position) (s : String) (c : Cell) : Prop where
  formula : ∀ formula, s.toList = '=' :: formula →
    ¬ Formula.IsWritten p (String.ofList formula) → ∃ f, c = .ofFault f
  clone : ∀ source, s.toList = ':' :: source → (∀ d n, ¬ Source source d n) → ∃ f, c = .ofFault f
  number : isNumberText s.toList → ∃ x, c = ⟨.number x, .pending⟩

theorem isNumberText_cons {c : Char} {cs : List Char} (hc : c = '=' ∨ c = ':') :
    isNumberText (c :: cs) = false := by
  have hdecimal : isDecimal c = false := by rcases hc with rfl | rfl <;> decide
  have hsign : isSign c = false := by rcases hc with rfl | rfl <;> decide
  have hpoint : c ≠ '.' := by rcases hc with rfl | rfl <;> decide
  simp [isNumberText, takeSign_eq hsign, hdecimal, hpoint]

theorem cloneOf_clear {source : List Char}
    (hclear : isMisleading (String.ofList (':' :: source)) = false) :
    (∃ f, cloneOf (String.ofList source) = .error (.fault f)) ∨
      ∃ d n, cloneOf (String.ofList source) = .ok (d, n) ∧ ∃ k, Source source d k := by
  unfold isMisleading at hclear
  unfold cloneOf
  rw [String.toList_ofList] at hclear ⊢
  cases source with
  | nil => exact .inl ⟨_, rfl⟩
  | cons c cs =>
    dsimp only at hclear ⊢
    cases hd : Direction.ofChar? c with
    | none => exact .inl ⟨_, rfl⟩
    | some d =>
      dsimp only
      split
      · next hnone => exact .inr ⟨_, _, rfl, _, .next hd hnone⟩
      · next hne =>
        split
        · exact .inl ⟨_, rfl⟩
        · next hdigit =>
          have hdigit : (trim cs).all isDigit := by simpa using hdigit
          obtain ⟨n, hn⟩ := natural_of_count hdigit hne (by simpa [hd] using hclear)
          rw [hn]
          cases n with
          | zero => exact .inl ⟨_, rfl⟩
          | succ n => exact .inr ⟨_, _, rfl, _, .steps hd hdigit hn⟩

theorem understood_formula {p : Position} {formula : List Char} {s : String} {c : Cell}
    (hs : s.toList = '=' :: formula)
    (h : ¬ Formula.IsWritten p (String.ofList formula) → ∃ f, c = .ofFault f) :
    Understood p s c := by
  refine ⟨?_, ?_, ?_⟩
  · intro formula' hs'
    obtain rfl : formula = formula' := by simpa [hs] using hs'
    exact h
  · intro source hs'
    simp [hs] at hs'
  · simp [hs, isNumberText_cons]

theorem understood_clone {p : Position} {source : List Char} {s : String} {c : Cell}
    (hs : s.toList = ':' :: source)
    (h : (∀ d n, ¬ Source source d n) → ∃ f, c = .ofFault f) : Understood p s c := by
  refine ⟨?_, ?_, ?_⟩
  · intro formula hs'
    simp [hs] at hs'
  · intro source' hs'
    obtain rfl : source = source' := by simpa [hs] using hs'
    exact h
  · simp [hs, isNumberText_cons]

theorem ofText_clear (p : Position) {s : String} (a : Arena) (hclear : isMisleading s = false) :
    ∃ c b, ofText p s a = (.ok c, b) ∧ Understood p s c := by
  unfold ofText
  generalize hs : s.toList = cs
  split
  · exact ⟨_, _, rfl, by simp [hs], by simp [hs], by simp [hs, isNumberText, takeSign]⟩
  · next formula =>
    have hformula : Formula.isMisleading (String.ofList formula) = false := by
      simpa [isMisleading, hs] using hclear
    rcases Formula.parse_clear p a hformula with ⟨f, b, hparse⟩ | ⟨root, b, hparse⟩
    · refine ⟨.ofFault f, b, ?_, understood_formula hs fun _ => ⟨f, rfl⟩⟩
      rw [orFault, Action.bind_error hparse]
    · refine ⟨⟨.formula root .origin 0.0, .pending⟩, b, ?_,
        understood_formula hs fun hnot => ?_⟩
      · rw [orFault, Action.bind_ok hparse]
        rfl
      · obtain ⟨tokens, t, hscan, hwrites, -⟩ := Formula.parse_ok hparse
        exact absurd ⟨tokens, t, hscan, hwrites⟩ hnot
  · next source =>
    have hsource : isMisleading (String.ofList (':' :: source)) = false := by
      rwa [← hs, String.ofList_toList]
    rcases cloneOf_clear hsource with ⟨f, hclone⟩ | ⟨d, n, hclone, k, hk⟩
    · refine ⟨.ofFault f, a, ?_, understood_clone hs fun _ => ⟨f, rfl⟩⟩
      have hstop : (Action.ofExcept (cloneOf (String.ofList source)) : Action Arena _) a =
          (.error (.fault f), a) := by rw [Action.ofExcept, hclone]
      rw [orFault, Action.bind_error hstop]
    · refine ⟨⟨.clone d n, .pending⟩, a, ?_, understood_clone hs fun hnot => absurd hk (hnot d k)⟩
      have hok : (Action.ofExcept (cloneOf (String.ofList source)) : Action Arena _) a =
          (.ok (d, n), a) := by rw [Action.ofExcept, hclone]
      rw [orFault, Action.bind_ok hok]
      rfl
  · next hformula hclone =>
    refine ⟨ofPlainText s, a, rfl, ?_, ?_, ofPlainText_number⟩
    · exact fun formula heq => absurd (hs.symm.trans heq) (hformula formula)
    · exact fun source heq => absurd (hs.symm.trans heq) (hclone source)

end Cell

def Line.IsMalformed (text : List Char) (count : List Char) : Prop :=
  mark <+: trim text ∧ count = trim ((trim text).drop mark.length) ∧
    (count = [] ∨ ¬ count.all isDigit)

namespace Line

variable {text : List Char} {texts : List (List Char)}

theorem ofText_clear (number : Nat) (hclear : isMisleading text = false) :
    (∃ count, IsMalformed text count ∧
      ofText number text = .error (.fault (.malformedRepeat (String.ofList count) number))) ∨
    ∃ l, ofText number text = .ok l ∧ ∀ cells, l = .row cells →
      ∀ cell ∈ cells, Cell.isMisleading (String.ofList (trim cell)) = false := by
  unfold isMisleading at hclear
  unfold ofText
  dsimp only at hclear ⊢
  split
  · next hmark =>
    rw [if_pos hmark] at hclear
    split
    · next hbad =>
      exact .inl ⟨_, ⟨List.isPrefixOf_iff_prefix.1 hmark, rfl, by simpa using hbad⟩, rfl⟩
    · next hgood =>
      simp only [Bool.or_eq_true, not_or, Bool.not_eq_true, Bool.not_eq_false'] at hgood
      obtain ⟨n, hn⟩ := natural_of_count hgood.2 (by simpa using hgood.1) hclear
      exact .inr ⟨.copies n, by rw [hn], by simp⟩
  · next hmark =>
    rw [if_neg hmark] at hclear
    refine .inr ⟨_, rfl, ?_⟩
    rintro cells ⟨⟩ cell hcell
    simpa using List.any_eq_false.1 hclear cell hcell

theorem ofTexts_clear (number : Nat) (hclear : ∀ text ∈ texts, isMisleading text = false) :
    (∃ i text count, texts[i]? = some text ∧ IsMalformed text count ∧
      ofTexts number texts =
        .error (.fault (.malformedRepeat (String.ofList count) (number + i)))) ∨
    ∃ ls, ofTexts number texts = .ok ls ∧ ∀ cells, .row cells ∈ ls →
      ∀ cell ∈ cells, Cell.isMisleading (String.ofList (trim cell)) = false := by
  induction texts generalizing number with
  | nil => exact .inr ⟨[], rfl, by simp⟩
  | cons text texts ih =>
    unfold ofTexts
    rcases ofText_clear number (hclear text (by simp)) with
      ⟨count, hbad, hline⟩ | ⟨l, hline, hcells⟩
    · exact .inl ⟨0, text, count, rfl, hbad, by rw [hline]; rfl⟩
    · rw [hline]
      rcases ih (number + 1) fun text h => hclear text (List.mem_cons_of_mem _ h) with
        ⟨i, text', count, hget, hbad, hrest⟩ | ⟨ls, hrest, hall⟩
      · refine .inl ⟨i + 1, text', count, hget, hbad, ?_⟩
        rw [hrest, Nat.add_assoc, Nat.add_comm 1 i]
        rfl
      · refine .inr ⟨l :: ls, by rw [hrest]; rfl, fun cells hmem => ?_⟩
        rcases List.mem_cons.1 hmem with rfl | hmem
        · exact hcells cells rfl
        · exact hall cells hmem

end Line

namespace Draft

variable {columns : Nat}

theorem cellsFrom_clear (row column : Nat) {texts : List (List Char)} (a : Arena)
    (hclear : ∀ cell ∈ texts, Cell.isMisleading (String.ofList (trim cell)) = false) :
    ∃ cells b, cellsFrom row column texts a = (.ok cells, b) := by
  induction texts generalizing column a with
  | nil => exact ⟨[], a, rfl⟩
  | cons t ts ih =>
    obtain ⟨c, b, hc, -⟩ := Cell.ofText_clear ⟨row, column⟩ a (hclear t (by simp))
    obtain ⟨cells, b', hcells⟩ := ih (column + 1) b
      fun cell h => hclear cell (List.mem_cons_of_mem _ h)
    refine ⟨c :: cells, b', ?_⟩
    rw [cellsFrom, Action.bind_ok hc, Action.bind_ok hcells]
    rfl

theorem addLines_clear {ls : List Line} (d : Draft columns)
    (hclear : ∀ cells, .row cells ∈ ls →
      ∀ cell ∈ cells, Cell.isMisleading (String.ofList (trim cell)) = false) :
    ∃ d', d.addLines ls = .ok d' := by
  induction ls generalizing d with
  | nil => exact ⟨d, rfl⟩
  | cons l ls ih =>
    have hline : ∃ d', d.addLine l = .ok d' := by
      cases l with
      | row texts =>
        obtain ⟨cells, b, hcells⟩ :=
          cellsFrom_clear d.rows.size 0 d.arena (hclear texts (by simp))
        exact ⟨_, by rw [addLine, hcells]⟩
      | copies n =>
        unfold addLine
        dsimp only
        split <;> exact ⟨_, rfl⟩
    obtain ⟨d', hd'⟩ := hline
    obtain ⟨d'', hd''⟩ := ih d' fun cells h => hclear cells (List.mem_cons_of_mem _ h)
    exact ⟨d'', by rw [addLines, hd']; exact hd''⟩

end Draft

namespace Grid

/-- Where nothing is misleading, a text is a table unless a line has a malformed count of copies,
and every cell is read, a malformed formula or clone as a fault. -/
theorem reads_clear (text s : String) (p : Position) (a : Arena) :
    ((∀ l ∈ lines text.toList, Line.isMisleading l = false) →
      (∃ table, ofText text = .ok table) ∨
      ∃ i l count, (lines text.toList)[i]? = some l ∧ Line.IsMalformed l count ∧
        ofText text = .error (.fault (.malformedRepeat (String.ofList count) (i + 1)))) ∧
    (Cell.isMisleading s = false →
      ∃ c b, Cell.ofText p s a = (.ok c, b) ∧ Cell.Understood p s c) := by
  refine ⟨fun hclear => ?_, fun hclear => Cell.ofText_clear p a hclear⟩
  unfold ofText Line.all
  rcases Line.ofTexts_clear 1 hclear with ⟨i, l, count, hget, hbad, hls⟩ | ⟨ls, hls, hcells⟩
  · refine .inr ⟨i, l, count, hget, hbad, ?_⟩
    rw [hls, Nat.add_comm]
    rfl
  · rw [hls]
    obtain ⟨d, hd⟩ := Draft.addLines_clear ({} : Draft (columnCountOf ls)) hcells
    refine .inl ⟨(d.toGrid, d.log), ?_⟩
    show (Draft.addLines _ ls >>= _) = _
    rw [hd]
    rfl

theorem reads_clear_malformed :
    ((∃ table, ofText "1|=(2|:x\n...2" = .ok table) ∨
      ∃ i l count, (lines "1|=(2|:x\n...2".toList)[i]? = some l ∧ Line.IsMalformed l count ∧
        ofText "1|=(2|:x\n...2" =
          .error (.fault (.malformedRepeat (String.ofList count) (i + 1)))) ∧
    ∃ c b, Cell.ofText ⟨0, 1⟩ "=(2" .empty = (.ok c, b) ∧ Cell.Understood ⟨0, 1⟩ "=(2" c := by
  obtain ⟨htable, hcell⟩ := reads_clear "1|=(2|:x\n...2" "=(2" ⟨0, 1⟩ .empty
  exact ⟨htable (by decide +kernel), hcell (by decide +kernel)⟩

/-- A clone with a raised two for its count keeps the table from being read. -/
theorem ofText_straySource :
    ofText "1|:^²" = .error (.breakdown (.integerText "²")) ∧
      Cell.ofText ⟨0, 1⟩ ":^²" .empty = (.error (.breakdown (.integerText "²")), .empty) := by
  decide +kernel

end Grid

end GridCalc
