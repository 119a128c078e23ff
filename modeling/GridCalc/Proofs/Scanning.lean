import GridCalc.Formula.Scan
import GridCalc.Proofs.Numerals

/-!
# What the tokens of a formula look like

A token is a slice of its formula. A number has the form of a decimal number, with digits in the
wider sense; a relative reference is a direction with such digits after it; and a cell has the form
of a cell name. What cannot be cut into tokens has a fault of cutting.
-/

set_option autoImplicit false

namespace GridCalc
open Text

theorem take_takeWhile {α : Type} (p : α → Bool) (l : List α) :
    l.take (l.takeWhile p).length = l.takeWhile p :=
  (List.prefix_iff_eq_take.1 (List.takeWhile_prefix p)).symm

theorem Text.trim_subset (cs : List Char) : trim cs ⊆ cs := by
  intro c hc
  rw [trim, trimEnd, List.mem_reverse] at hc
  have hstart := List.mem_reverse.1 ((List.dropWhile_sublist isBlank).subset hc)
  exact (List.dropWhile_sublist isBlank).subset hstart

section

variable {cs : List Char} {n : Nat} {point digits : Bool}

theorem map_add_ok {x : Except (Nat → Fault) Nat} {k : Nat} (h : x.map (· + k) = .ok n) :
    ∃ m, x = .ok m ∧ n = m + k := by
  cases x with
  | error e => cases h
  | ok m => exact ⟨m, rfl, (Except.ok.inj h).symm⟩

theorem numberLength_power (h : numberLength point true digits cs = .ok n) :
    (∀ d ∈ cs.take n, isDigit d) ∧ (startsWith isDigit cs → cs.take n ≠ []) := by
  induction cs generalizing n digits with
  | nil => simp [startsWith]
  | cons c cs ih =>
    unfold numberLength at h
    split at h
    · next hc =>
      obtain ⟨m, hm, rfl⟩ := map_add_ok h
      simpa [hc] using (ih hm).1
    · next hc =>
      have hn : n = 0 := by
        split at h
        · split at h
          · cases h
          · cases h
            rfl
        · simp only [Bool.not_true, Bool.false_eq_true, false_and, and_false, if_false] at h
          cases h
          rfl
      simp [hn, startsWith, hc]

theorem numberLength_mark {c : Char} (hmark : c = 'e' ∨ c = 'E')
    (h : numberLength point false true (c :: cs) = .ok n) :
    PowerText isDigit ((c :: cs).take n) := by
  have hdigit : isDigit c = false := by rcases hmark with rfl | rfl <;> decide
  have hpoint : c ≠ '.' := by rcases hmark with rfl | rfl <;> decide
  have hpower : Decimal.isPowerMark c := by rcases hmark with rfl | rfl <;> rfl
  rw [numberLength.eq_def] at h
  dsimp only at h
  rw [if_neg (by simp [hdigit]), if_neg hpoint, if_pos (by simp [hmark])] at h
  cases cs with
  | nil => cases h
  | cons d ds =>
    dsimp only at h
    split at h
    · next hsign =>
      split at h
      · next hstart =>
        obtain ⟨m, hm, rfl⟩ := map_add_ok h
        obtain ⟨hall, hne⟩ := numberLength_power hm
        exact .signed hpower hsign (hne hstart) hall
      · cases h
    · split at h
      · next hd =>
        obtain ⟨m, hm, rfl⟩ := map_add_ok h
        obtain ⟨hall, hne⟩ := numberLength_power hm
        exact .plain hpower (hne hd) hall
      · cases h

theorem numberLength_fraction (h : numberLength true false digits cs = .ok n) :
    ∃ fs power, cs.take n = fs ++ power ∧ (∀ d ∈ fs, isDigit d) ∧ PowerText isDigit power ∧
      (digits = false → fs = [] → power = []) := by
  induction cs generalizing n digits with
  | nil => exact ⟨[], [], by simp, by simp, .none, by simp⟩
  | cons c cs ih =>
    by_cases hc : isDigit c
    · rw [numberLength.eq_def] at h
      dsimp only at h
      rw [if_pos hc] at h
      obtain ⟨m, hm, rfl⟩ := map_add_ok h
      obtain ⟨fs, power, htake, hfs, hpower, -⟩ := ih hm
      exact ⟨c :: fs, power, by simp [htake], by simpa [hc] using hfs, hpower, by simp⟩
    · by_cases hmark : (c = 'e' ∨ c = 'E') ∧ digits = true
      · obtain ⟨hmark, rfl⟩ := hmark
        exact ⟨[], _, rfl, by simp, numberLength_mark hmark h, by simp⟩
      · rw [numberLength.eq_def] at h
        dsimp only at h
        rw [if_neg hc] at h
        split at h
        · cases h
        · rw [if_neg (by simpa using hmark)] at h
          cases h
          exact ⟨[], [], by simp, by simp, .none, by simp⟩

theorem numberLength_number (h : numberLength false false digits cs = .ok n) :
    ∃ ds rest, cs.take n = ds ++ rest ∧ (∀ d ∈ ds, isDigit d) ∧
      (PowerText isDigit rest ∧ (digits = false → ds = [] → rest = []) ∨
        ∃ fs power, rest = '.' :: (fs ++ power) ∧ (∀ d ∈ fs, isDigit d) ∧
          PowerText isDigit power ∧ (digits = false → ds = [] → fs = [] → power = [])) := by
  induction cs generalizing n digits with
  | nil => exact ⟨[], [], by simp, by simp, .inl ⟨.none, by simp⟩⟩
  | cons c cs ih =>
    by_cases hc : isDigit c
    · rw [numberLength.eq_def] at h
      dsimp only at h
      rw [if_pos hc] at h
      obtain ⟨m, hm, rfl⟩ := map_add_ok h
      obtain ⟨ds, rest, htake, hds, hrest⟩ := ih hm
      refine ⟨c :: ds, rest, by simp [htake], by simpa [hc] using hds, ?_⟩
      rcases hrest with ⟨hpower, -⟩ | ⟨fs, power, hrest, hfs, hpower, -⟩
      · exact .inl ⟨hpower, by simp⟩
      · exact .inr ⟨fs, power, hrest, hfs, hpower, by simp⟩
    · by_cases hmark : (c = 'e' ∨ c = 'E') ∧ digits = true
      · obtain ⟨hmark, rfl⟩ := hmark
        exact ⟨[], _, rfl, by simp, .inl ⟨numberLength_mark hmark h, by simp⟩⟩
      · rw [numberLength.eq_def] at h
        dsimp only at h
        rw [if_neg hc] at h
        split at h
        · next hpoint =>
          rw [if_neg (by simp), if_neg (by simp)] at h
          obtain ⟨m, hm, rfl⟩ := map_add_ok h
          obtain ⟨fs, power, htake, hfs, hpower, hnone⟩ := numberLength_fraction hm
          exact ⟨[], '.' :: (fs ++ power), by simp [htake, hpoint], by simp,
            .inr ⟨fs, power, rfl, hfs, hpower, fun hd _ => hnone hd⟩⟩
        · rw [if_neg (by simpa using hmark)] at h
          cases h
          exact ⟨[], [], by simp, by simp, .inl ⟨.none, by simp⟩⟩

theorem numberLength_pos {c : Char} (hc : isDigit c || c == '.')
    (h : numberLength false false false (c :: cs) = .ok n) : 0 < n := by
  rw [numberLength.eq_def] at h
  dsimp only at h
  split at h
  · obtain ⟨m, -, rfl⟩ := map_add_ok h
    exact Nat.succ_pos m
  · next hdigit =>
    rw [if_pos (by simpa [hdigit] using hc), if_neg (by simp), if_neg (by simp)] at h
    obtain ⟨m, -, rfl⟩ := map_add_ok h
    exact Nat.succ_pos m

theorem numberExtent_numberText {place : Nat} {c : Char} (hc : isDigit c || c == '.')
    (h : numberExtent place (c :: cs) = .ok n) :
    0 < n ∧ NumberText isDigit ((c :: cs).take n) := by
  unfold numberExtent at h
  cases hlength : numberLength false false false (c :: cs) with
  | error e =>
    rw [hlength] at h
    cases h
  | ok m =>
    rw [hlength] at h
    dsimp only at h
    split at h
    · cases h
    · next hpoint =>
      split at h
      · cases h
      · cases h
        have hpos := numberLength_pos hc hlength
        refine ⟨hpos, ?_⟩
        obtain ⟨ds, rest, htake, hds, hrest⟩ := numberLength_number hlength
        rw [htake] at hpoint ⊢
        rcases hrest with ⟨hpower, hnone⟩ | ⟨fs, power, rfl, hfs, hpower, hnone⟩
        · refine .whole ?_ hds hpower
          rintro rfl
          rw [hnone rfl rfl] at htake
          simp at htake
          omega
        · refine .pointed ?_ hds hfs hpower
          by_cases hempty : ds = []
          · subst hempty
            refine .inr ?_
            rintro rfl
            simp [hnone rfl rfl rfl] at hpoint
          · exact .inl hempty

end

section

variable {place n : Nat} {c : Char} {rest : List Char}

/-- The characters of a token of each kind, the first of them and the number of others. -/
inductive Lexeme (c : Char) (rest : List Char) : TokenKind → Nat → Prop
  | number {n : Nat} : NumberText isDigit (c :: rest.take n) → Lexeme c rest .number n
  | relative {n : Nat} {d : Direction} : Direction.ofChar? c = some d →
      (∀ x ∈ rest.take n, isDigit x) → Lexeme c rest .relative n
  | cell {n : Nat} : isCellName (c :: rest.take n) → Lexeme c rest .cell n
  | name {n : Nat} : Lexeme c rest .name n
  | symbol {kind : TokenKind} : symbolKind? c = some kind → Lexeme c rest kind 0

/-- The rule for the first character of a token, and how far it goes. -/
theorem lexeme_cases {kind : TokenKind} (h : lexeme place c rest = .ok (kind, n)) :
    ((isDigit c || c == '.') = true ∧ kind = .number ∧
      numberExtent place (c :: rest) = .ok (n + 1)) ∨
    ((isDigit c || c == '.') = false ∧ pointsAway c = true ∧ kind = .relative ∧
      n = (rest.takeWhile isDigit).length) ∨
    ((isDigit c || c == '.') = false ∧ pointsAway c = false ∧ (isLetter c || c == '_') = true ∧
      n = (rest.takeWhile isWordPart).length ∧
      wordKind place (c :: rest.takeWhile isWordPart) (rest.drop n) = .ok kind) ∨
    symbolKind? c = some kind ∧ n = 0 := by
  by_cases hnumber : (isDigit c || c == '.') = true
  · rw [lexeme, if_pos hnumber] at h
    obtain ⟨m, hm, heq⟩ := map_ok h
    cases heq
    have hpos := (numberExtent_numberText hnumber hm).1
    exact .inl ⟨hnumber, rfl, by rw [hm, Nat.sub_add_cancel hpos]⟩
  rw [lexeme, if_neg hnumber] at h
  by_cases haway : pointsAway c = true
  · rw [if_pos haway] at h
    cases h
    exact .inr (.inl ⟨by simpa using hnumber, haway, rfl, rfl⟩)
  rw [if_neg haway] at h
  by_cases hletter : (isLetter c || c == '_') = true
  · rw [if_pos hletter] at h
    obtain ⟨k, hk, heq⟩ := map_ok h
    cases heq
    exact .inr (.inr (.inl ⟨by simpa using hnumber, by simpa using haway, hletter, rfl, hk⟩))
  rw [if_neg hletter] at h
  split at h
  · next k hk =>
    cases h
    exact .inr (.inr (.inr ⟨hk, rfl⟩))
  · cases h

theorem lexeme_ok {kind : TokenKind} (h : lexeme place c rest = .ok (kind, n)) :
    Lexeme c rest kind n := by
  rcases lexeme_cases h with ⟨hc, rfl, hnumber⟩ | ⟨-, hc, rfl, rfl⟩ | ⟨-, -, -, rfl, hk⟩ | ⟨hk, rfl⟩
  · exact .number (numberExtent_numberText hc hnumber).2
  · obtain ⟨d, hd⟩ : ∃ d, Direction.ofChar? c = some d := by
      simp only [pointsAway, Bool.or_eq_true, beq_iff_eq] at hc
      rcases hc with (rfl | rfl) | rfl <;> exact ⟨_, rfl⟩
    refine .relative hd ?_
    rw [take_takeWhile]
    exact List.all_eq_true.1 List.all_takeWhile
  · rw [← take_takeWhile isWordPart rest] at hk
    unfold wordKind at hk
    split at hk
    · next hv =>
      cases hk
      simp only [startsWith, Bool.and_eq_true, beq_iff_eq, List.drop_succ_cons,
        List.drop_zero, List.all_eq_true] at hv
      obtain ⟨rfl, hall⟩ := hv
      exact .relative rfl hall
    · split at hk
      · cases hk
        exact .name
      · split at hk
        · next hcell =>
          cases hk
          exact .cell hcell
        · split at hk
          · cases hk
          · cases hk
            exact .name
  · exact .symbol hk

theorem scanFrom_slice {cs : List Char} {ts : List Token} (h : scanFrom place cs = .ok ts)
    {t : Token} (ht : t ∈ ts) : ∃ start c rest n, (c :: rest) <:+ cs ∧ isBlank c = false ∧
      lexeme start c rest = .ok (t.kind, n) ∧ t.text.toList = c :: rest.take n := by
  fun_induction scanFrom place cs generalizing ts with
  | case1 place =>
    cases h
    cases ht
  | case2 place c cs hc ih =>
    obtain ⟨start, d, rest, n, hsuffix, hslice⟩ := ih h ht
    exact ⟨start, d, rest, n, hsuffix.trans (List.suffix_cons c cs), hslice⟩
  | case3 place c cs hc f hf => cases h
  | case4 place c cs hc kind n hlex ih =>
    obtain ⟨us, hus, rfl⟩ := map_ok h
    rcases List.mem_cons.1 ht with rfl | ht
    · exact ⟨place, c, cs, n, List.suffix_refl _, by simpa using hc, hlex, by simp⟩
    · obtain ⟨start, d, rest, m, hsuffix, hslice⟩ := ih hus ht
      exact ⟨start, d, rest, m,
        hsuffix.trans ((List.drop_suffix n cs).trans (List.suffix_cons c cs)), hslice⟩

theorem scanFrom_mem {cs : List Char} {ts : List Token} (h : scanFrom place cs = .ok ts) {t : Token}
    (ht : t ∈ ts) : ∃ c rest n, (c :: rest) <:+ cs ∧ Lexeme c rest t.kind n ∧
      t.text.toList = c :: rest.take n := by
  obtain ⟨start, c, rest, n, hsuffix, -, hlexeme, htext⟩ := scanFrom_slice h ht
  exact ⟨c, rest, n, hsuffix, lexeme_ok hlexeme, htext⟩

/-- The texts of a formula or of a table that the message of a fault quotes. -/
def Fault.quotes : Fault → List (List Char)
  | unexpectedCharacter c _ => [[c]]
  | malformedCellName text _ | missingOperator text _ | misplacedOperator text | unknownCell text
  | malformedDirection text | malformedOffset text | missingArguments text | malformedRepeat text _
  | regionOutside text | unsettled text | argumentCount text _ _ | rangeWanted _ text
  | rangeUnwanted _ text | unknownFunction text none | noted _ text => [text.toList]
  | unknownFunction text (some other) => [text.toList, other.toList]
  | _ => []

theorem numberLength_error {cs : List Char} {point power digits : Bool} {f : Nat → Fault}
    (h : numberLength point power digits cs = .error f) (place : Nat) :
    (f place).category = .token ∧ (f place).quotes = [] := by
  fun_induction numberLength point power digits cs
  all_goals first
    | cases h; exact ⟨rfl, rfl⟩
    | cases h
    | rename_i ih; exact ih (map_error h)

theorem numberExtent_error {place : Nat} {cs : List Char} {f : Fault}
    (h : numberExtent place cs = .error f) : f.category = .token ∧ f.quotes = [] := by
  unfold numberExtent at h
  cases hlength : numberLength false false false cs with
  | error e =>
    rw [hlength] at h
    cases h
    exact numberLength_error hlength place
  | ok n =>
    rw [hlength] at h
    dsimp only at h
    split at h
    · cases h
      exact ⟨rfl, rfl⟩
    · split at h
      · cases h
        exact ⟨rfl, rfl⟩
      · cases h

theorem lexeme_error {f : Fault} (h : lexeme place c rest = .error f) :
    f.category = .token ∧ ∀ quoted ∈ f.quotes, quoted ⊆ c :: rest := by
  unfold lexeme at h
  split at h
  · obtain ⟨hf, hquotes⟩ := numberExtent_error (map_error h)
    exact ⟨hf, by simp [hquotes]⟩
  · split at h
    · cases h
    · split at h
      · have hword := map_error h
        unfold wordKind at hword
        repeat' split at hword
        all_goals cases hword
        have hfront : c :: rest.takeWhile isWordPart ⊆ c :: rest :=
          List.cons_subset_cons c (List.takeWhile_sublist _).subset
        exact ⟨rfl, by simpa [Fault.quotes] using hfront⟩
      · split at h
        · cases h
        · cases h
          exact ⟨rfl, by simp [Fault.quotes]⟩

theorem scan_error {formula : String} {f : Fault} (h : scan formula = .error f) :
    f.category = .token ∧ ∀ quoted ∈ f.quotes, quoted ⊆ formula.toList := by
  unfold scan at h
  have htrim : trim formula.toList ⊆ formula.toList := trim_subset _
  generalize trim formula.toList = cs at h htrim
  generalize 0 = place at h
  fun_induction scanFrom place cs with
  | case1 => cases h
  | case2 place c cs hc ih => exact ih (List.subset_of_cons_subset htrim) h
  | case3 place c cs hc e he =>
    cases h
    obtain ⟨hf, hquotes⟩ := lexeme_error he
    exact ⟨hf, fun quoted hq => List.Subset.trans (hquotes quoted hq) htrim⟩
  | case4 place c cs hc kind n hlex ih =>
    have hrest := List.Subset.trans (List.drop_subset n cs) (List.subset_of_cons_subset htrim)
    exact ih hrest (map_error h)

end

end GridCalc
