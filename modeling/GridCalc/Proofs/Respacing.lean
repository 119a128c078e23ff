import GridCalc.Proofs.Cutting

/-!
# Formulas with other spaces

The tokens of a formula lie in it one after another with nothing but blanks between them, and no
token has a blank inside. Each of them is still read as far as before if a space follows it, and
whether a bracket opens behind a word is told by the next token. So the words of a formula, set
apart by single spaces, are cut into the same words again.
-/

set_option autoImplicit false

namespace GridCalc
open Text

/-- What may stand behind a word that is set apart: nothing, or a space and more. -/
def Apart (tail : List Char) : Prop := ∀ c ∈ tail.head?, c = ' '

section

variable {cs rest tail : List Char} {c : Char} {n place : ℕ} {point power digits : Bool}

theorem Apart.head (h : Apart tail) : ∀ c ∈ tail.head?, isWordPart c = false ∧ c ≠ '.' := by
  have hspace : isWordPart ' ' = false ∧ ' ' ≠ '.' := by decide +kernel
  intro c hc
  rw [h c hc]
  exact hspace

theorem Apart.not_isDigit (h : Apart tail) : ∀ c ∈ tail.head?, isDigit c = false := by
  have hspace : isDigit ' ' = false := by decide +kernel
  intro c hc
  rw [h c hc]
  exact hspace

theorem startsWith_append {p : Char → Bool} (hne : cs ≠ []) :
    startsWith p (cs ++ tail) = startsWith p cs := by
  cases cs with
  | nil => exact absurd rfl hne
  | cons c cs => rfl

theorem startsWith_take {p : Char → Bool} (hne : cs.take n ≠ []) :
    startsWith p (cs.take n ++ tail) = startsWith p cs := by
  rw [startsWith_append hne, ← startsWith_append hne, List.take_append_drop]

theorem numberLength_apart (htail : Apart tail) (h : numberLength point power digits cs = .ok n) :
    n ≤ cs.length ∧ numberLength point power digits (cs.take n ++ tail) = .ok n := by
  -- The recursion goes along with the characters; the end of the number is where it has no case.
  fun_induction numberLength point power digits cs generalizing n with
  | case1 | case4 | case11 =>
    cases h
    exact ⟨Nat.zero_le _, numberLength_end htail.head⟩
  | case3 | case6 | case8 | case10 => cases h
  | case2 point power digits c cs hc ih =>
    obtain ⟨m, hm, rfl⟩ := map_add_ok h
    obtain ⟨hle, hagain⟩ := ih hm
    refine ⟨Nat.succ_le_succ hle, ?_⟩
    rw [List.take_succ_cons, List.cons_append, numberLength.eq_def]
    dsimp only
    rw [if_pos hc, hagain]
    rfl
  | case5 point power digits cs hpoint hpower hc ih =>
    obtain ⟨m, hm, rfl⟩ := map_add_ok h
    obtain ⟨hle, hagain⟩ := ih hm
    refine ⟨Nat.succ_le_succ hle, ?_⟩
    rw [List.take_succ_cons, List.cons_append, numberLength.eq_def]
    dsimp only
    rw [if_neg hc, if_pos rfl, if_neg hpoint, if_neg hpower, hagain]
    rfl
  | case7 point power digits c hc hpoint hmark d ds hsign hstart ih =>
    obtain ⟨m, hm, rfl⟩ := map_add_ok h
    obtain ⟨hle, hagain⟩ := ih hm
    have hfirst := (numberLength_power hm).2 hstart
    refine ⟨Nat.succ_le_succ (Nat.succ_le_succ hle), ?_⟩
    rw [List.take_succ_cons, List.take_succ_cons, List.cons_append, List.cons_append,
      numberLength.eq_def]
    dsimp only
    rw [if_neg hc, if_neg hpoint, if_pos hmark, if_pos hsign,
      if_pos ((startsWith_take hfirst).trans hstart), hagain]
    rfl
  | case9 point power digits c hc hpoint hmark d ds hsign hd ih =>
    obtain ⟨m, hm, rfl⟩ := map_add_ok h
    obtain ⟨hle, hagain⟩ := ih hm
    obtain ⟨k, rfl⟩ : ∃ k, m = k + 1 := by
      have hfirst := (numberLength_power hm).2 hd
      cases m with
      | zero => exact absurd rfl hfirst
      | succ k => exact ⟨k, rfl⟩
    refine ⟨Nat.succ_le_succ hle, ?_⟩
    rw [List.take_succ_cons, List.cons_append] at hagain
    rw [List.take_succ_cons, List.take_succ_cons, List.cons_append, List.cons_append,
      numberLength.eq_def]
    dsimp only
    rw [if_neg hc, if_neg hpoint, if_pos hmark, if_neg hsign, if_pos hd, hagain]
    rfl

theorem numberExtent_apart (next : ℕ) (htail : Apart tail) (h : numberExtent place cs = .ok n) :
    n ≤ cs.length ∧ numberExtent next (cs.take n ++ tail) = .ok n := by
  unfold numberExtent at h
  cases hlength : numberLength false false false cs with
  | error e =>
    rw [hlength] at h
    cases h
  | ok m =>
    rw [hlength] at h
    dsimp only at h
    split at h
    · cases h
    · next hpoint =>
      split at h
      · cases h
      · next hlast =>
        cases h
        obtain ⟨hle, hagain⟩ := numberLength_apart htail hlength
        have htake : (cs.take n ++ tail).take n = cs.take n := by
          rw [List.take_append_of_le_length (by simpa using hle), List.take_take, Nat.min_self]
        refine ⟨hle, ?_⟩
        rw [numberExtent, hagain]
        dsimp only
        rw [htake, if_neg hpoint, if_neg hlast]

theorem wordKind_eq {next : ℕ} {word : List Char} {kind : TokenKind}
    (h : wordKind place word rest = .ok kind)
    (hopen : startsWith (· == '(') (trimStart tail) = startsWith (· == '(') (trimStart rest)) :
    wordKind next word tail = .ok kind := by
  -- The rest of a word matters only in whether a bracket opens there.
  unfold wordKind at h ⊢
  rw [hopen]
  split_ifs at h ⊢ <;> exact h

/-- A token is cut off again, as far as before, where it is set apart. -/
theorem lexeme_apart {kind : TokenKind} (next : ℕ) (htail : Apart tail)
    (h : lexeme place c rest = .ok (kind, n))
    (hopen : startsWith (· == '(') (trimStart tail) =
      startsWith (· == '(') (trimStart (rest.drop n))) :
    lexeme next c (rest.take n ++ tail) = .ok (kind, (rest.take n).length) := by
  rcases lexeme_cases h with ⟨hnumber, rfl, hextent⟩ | ⟨hnumber, haway, rfl, rfl⟩ |
    ⟨hnumber, haway, hletter, rfl, hk⟩ | ⟨hk, rfl⟩
  · obtain ⟨hle, hagain⟩ := numberExtent_apart next htail hextent
    rw [List.take_succ_cons, List.cons_append] at hagain
    rw [lexeme, if_pos hnumber, hagain, List.length_take,
      Nat.min_eq_left (Nat.le_of_succ_le_succ hle)]
    rfl
  · have hdigits := takeWhile_word (List.all_eq_true.1 (List.all_takeWhile (l := rest)))
      htail.not_isDigit
    rw [lexeme, if_neg (by simp [hnumber]), if_pos haway, take_takeWhile, hdigits]
  · have hword := List.all_eq_true.1 (List.all_takeWhile (p := isWordPart) (l := rest))
    rw [take_takeWhile]
    exact lexeme_word hnumber haway hletter hword (fun x hx => (htail.head x hx).1)
      (wordKind_eq hk hopen)
  · exact (lexeme_symbol hk).2

theorem isBlank_of_isWordPart (h : isWordPart c) : isBlank c = false := by
  have hwords : ∀ n ∈ blanks, isWordPart (Char.ofNat n) = false :=
    List.all_iff_forall_prop.1 (by decide +kernel)
  cases hc : isBlank c with
  | false => rfl
  | true =>
    have hword := hwords c.toNat (List.contains_iff_mem.1 hc)
    rw [Char.ofNat_toNat, h] at hword
    cases hword

theorem isBlank_of_isDigit (h : isDigit c) : isBlank c = false :=
  isBlank_of_isWordPart (by simp [isWordPart, isWordChar_of_isDigit h])

theorem isBlank_of_isMark (h : c = '.' ∨ Decimal.isPowerMark c ∨ isSign c) : isBlank c = false := by
  simp only [Decimal.isPowerMark, isSign, Bool.or_eq_true, beq_iff_eq] at h
  rcases h with rfl | (rfl | rfl) | rfl | rfl <;> decide

theorem powerText_unblank (h : PowerText isDigit cs) : ∀ c ∈ cs, isBlank c = false := by
  cases h with
  | none => simp
  | plain hmark hne hds =>
    rw [List.forall_mem_cons]
    exact ⟨isBlank_of_isMark (.inr (.inl hmark)), fun d hd => isBlank_of_isDigit (hds d hd)⟩
  | signed hmark hsign hne hds =>
    rw [List.forall_mem_cons, List.forall_mem_cons]
    exact ⟨isBlank_of_isMark (.inr (.inl hmark)), isBlank_of_isMark (.inr (.inr hsign)),
      fun d hd => isBlank_of_isDigit (hds d hd)⟩

theorem numberText_unblank (h : NumberText isDigit cs) : ∀ c ∈ cs, isBlank c = false := by
  cases h with
  | whole hne hds hpower =>
    rw [List.forall_mem_append]
    exact ⟨fun d hd => isBlank_of_isDigit (hds d hd), powerText_unblank hpower⟩
  | pointed hne hds hfs hpower =>
    rw [List.forall_mem_append, List.forall_mem_cons, List.forall_mem_append]
    exact ⟨fun d hd => isBlank_of_isDigit (hds d hd), isBlank_of_isMark (.inl rfl),
      fun d hd => isBlank_of_isDigit (hfs d hd), powerText_unblank hpower⟩

theorem lexeme_le {kind : TokenKind} (h : lexeme place c rest = .ok (kind, n)) :
    n ≤ rest.length := by
  rcases lexeme_cases h with ⟨-, -, hextent⟩ | ⟨-, -, -, rfl⟩ | ⟨-, -, -, rfl, -⟩ | ⟨-, rfl⟩
  · have hnone : Apart [] := by simp [Apart]
    exact Nat.le_of_succ_le_succ (numberExtent_apart place hnone hextent).1
  · exact (List.takeWhile_sublist _).length_le
  · exact (List.takeWhile_sublist _).length_le
  · exact Nat.zero_le _

theorem lexeme_unblank {kind : TokenKind} (hc : isBlank c = false)
    (h : lexeme place c rest = .ok (kind, n)) : ∀ x ∈ c :: rest.take n, isBlank x = false := by
  rcases lexeme_cases h with ⟨hnumber, rfl, hextent⟩ | ⟨-, -, rfl, rfl⟩ | ⟨-, -, -, rfl, -⟩ |
    ⟨-, rfl⟩
  · exact numberText_unblank (numberExtent_numberText hnumber hextent).2
  · rw [take_takeWhile, List.forall_mem_cons]
    exact ⟨hc, fun x hx => isBlank_of_isDigit (List.all_eq_true.1 List.all_takeWhile x hx)⟩
  · rw [take_takeWhile, List.forall_mem_cons]
    exact ⟨hc, fun x hx => isBlank_of_isWordPart (List.all_eq_true.1 List.all_takeWhile x hx)⟩
  · simpa using hc

end

/-- How tokens lie in a text from a place on: blanks stand between them and nothing else. -/
inductive Cut : ℕ → List Char → List Token → Prop
  | done {place : ℕ} : Cut place [] []
  | blank {place : ℕ} {c : Char} {cs : List Char} {ts : List Token} : isBlank c →
      Cut (place + 1) cs ts → Cut place (c :: cs) ts
  | token {place : ℕ} {kind : TokenKind} {word cs : List Char} {ts : List Token} : word ≠ [] →
      (∀ c ∈ word, isBlank c = false) → Cut (place + word.length) cs ts →
      Cut place (word ++ cs) (⟨kind, String.ofList word, place⟩ :: ts)

section

variable {cs : List Char} {ts : List Token} {t : Token} {place : ℕ}

theorem scanFrom_cut (h : scanFrom place cs = .ok ts) : Cut place cs ts := by
  fun_induction scanFrom place cs generalizing ts with
  | case1 place =>
    cases h
    exact .done
  | case2 place c cs hc ih => exact .blank hc (ih h)
  | case3 place c cs hc f hf => cases h
  | case4 place c cs hc kind n hlex ih =>
    obtain ⟨us, hus, rfl⟩ := map_ok h
    have hword := lexeme_unblank (by simpa using hc) hlex
    have hlength : (c :: cs.take n).length = 1 + n := by
      rw [List.length_cons, List.length_take, Nat.min_eq_left (lexeme_le hlex), Nat.add_comm]
    have hrest : Cut (place + (c :: cs.take n).length) (cs.drop n) us := by
      rw [hlength, ← Nat.add_assoc]
      exact ih hus
    have hcut : Cut place ((c :: cs.take n) ++ cs.drop n) (⟨kind, _, place⟩ :: us) :=
      .token (List.cons_ne_nil _ _) hword hrest
    rwa [List.cons_append, List.take_append_drop] at hcut

theorem Cut.place_le (h : Cut place cs ts) (ht : t ∈ ts) : place ≤ t.place := by
  induction h with
  | done => cases ht
  | blank _ _ ih => exact Nat.le_of_succ_le (ih ht)
  | token _ _ _ ih =>
    rcases List.mem_cons.1 ht with rfl | ht
    · exact Nat.le_refl _
    · exact (Nat.le_add_right _ _).trans (ih ht)

theorem Cut.slice (h : Cut place cs ts) (ht : t ∈ ts) : t.text.toList ≠ [] ∧
    (∀ c ∈ t.text.toList, isBlank c = false) ∧
    (cs.drop (t.place - place)).take t.text.length = t.text.toList := by
  induction h with
  | done => cases ht
  | @blank place c cs ts _ hrest ih =>
    obtain ⟨hne, hword, hslice⟩ := ih ht
    have hplace : t.place - place = t.place - (place + 1) + 1 := by
      have := hrest.place_le ht
      omega
    exact ⟨hne, hword, by rw [hplace, List.drop_succ_cons, hslice]⟩
  | @token place kind word cs ts hne hword hrest ih =>
    rcases List.mem_cons.1 ht with rfl | ht
    · refine ⟨by simpa using hne, by simpa using hword, ?_⟩
      simp
    · obtain ⟨hne, hword, hslice⟩ := ih ht
      have hplace : t.place - place = word.length + (t.place - (place + word.length)) := by
        have := hrest.place_le ht
        omega
      exact ⟨hne, hword, by rw [hplace, ← List.drop_drop, List.drop_left, hslice]⟩

theorem Cut.pairwise (h : Cut place cs ts) :
    ts.Pairwise fun t u => t.place + t.text.length ≤ u.place := by
  induction h with
  | done => exact .nil
  | blank _ _ ih => exact ih
  | token _ _ hrest ih =>
    refine .cons (fun u hu => ?_) ih
    simpa using hrest.place_le hu

theorem Cut.gap (h : Cut place cs ts) {i : ℕ} {c : Char} (hi : cs[i]? = some c)
    (hfree : ∀ t ∈ ts, place + i < t.place ∨ t.place + t.text.length ≤ place + i) : isBlank c := by
  induction h generalizing i with
  | done => cases hi
  | @blank place d cs ts hblank _ ih =>
    cases i with
    | zero =>
      cases hi
      exact hblank
    | succ i =>
      refine ih hi fun t ht => ?_
      rw [Nat.add_assoc, Nat.add_comm 1 i]
      exact hfree t ht
  | @token place kind word cs ts hne hword hrest ih =>
    have hpast : word.length ≤ i := by
      simpa using hfree _ List.mem_cons_self
    obtain ⟨k, rfl⟩ := Nat.exists_eq_add_of_le hpast
    rw [List.getElem?_append_right (Nat.le_add_right _ _), Nat.add_sub_cancel_left] at hi
    refine ih hi fun t ht => ?_
    rw [Nat.add_assoc]
    exact hfree t (List.mem_cons_of_mem _ ht)

end

def spaced (ts : List Token) : List Char := ts.flatMap fun t => ' ' :: t.text.toList

section

variable {cs word : List Char} {ts : List Token} {place : ℕ}

theorem spaced_cons (t : Token) (ts : List Token) :
    spaced (t :: ts) = ' ' :: (t.text.toList ++ spaced ts) := rfl

theorem apart_spaced (ts : List Token) : Apart (spaced ts) := by
  cases ts <;> simp [Apart, spaced]

theorem toList_intercalate (ts : List Token) :
    (" ".intercalate (ts.map (·.text))).toList = (spaced ts).tail := by
  induction ts with
  | nil => rfl
  | cons t ts ih =>
    cases ts with
    | nil => simp [spaced]
    | cons u us =>
      rw [List.map_cons, List.map_cons, String.intercalate_cons_cons, ← List.map_cons,
        String.toList_append, String.toList_append, ih]
      simp [spaced]

theorem trimStart_append (hne : word ≠ []) (hword : ∀ c ∈ word, isBlank c = false) :
    trimStart (word ++ cs) = word ++ cs := by
  cases word with
  | nil => exact absurd rfl hne
  | cons c word => exact List.dropWhile_cons_of_neg (by simp [hword c (by simp)])

theorem trimEnd_append (hne : word ≠ []) (hword : ∀ c ∈ word, isBlank c = false) :
    trimEnd (cs ++ word) = cs ++ word := by
  have hback : trimStart (word.reverse ++ cs.reverse) = word.reverse ++ cs.reverse :=
    trimStart_append (List.reverse_ne_nil_iff.2 hne) (by simpa using hword)
  rw [trimStart] at hback
  rw [trimEnd, List.reverse_append, hback, List.reverse_append, List.reverse_reverse,
    List.reverse_reverse]

theorem Cut.trim_spaced (h : Cut place cs ts) : trim (spaced ts).tail = (spaced ts).tail := by
  rcases List.eq_nil_or_concat' ts with rfl | ⟨front, t, rfl⟩
  · rfl
  · obtain ⟨hlast, hlastWord, -⟩ := h.slice (t := t) (by simp)
    have hend : ∃ xs, (spaced (front ++ [t])).tail = xs ++ t.text.toList := by
      cases front with
      | nil => exact ⟨[], by simp [spaced]⟩
      | cons u us => exact ⟨u.text.toList ++ spaced us ++ [' '], by simp [spaced]⟩
    have hstart : trimStart (spaced (front ++ [t])).tail = (spaced (front ++ [t])).tail := by
      cases front with
      | nil =>
        rw [List.nil_append, spaced_cons, List.tail_cons]
        exact trimStart_append hlast hlastWord
      | cons u us =>
        obtain ⟨hfirst, hfirstWord, -⟩ := h.slice (t := u) (by simp)
        rw [List.cons_append, spaced_cons, List.tail_cons]
        exact trimStart_append hfirst hfirstWord
    obtain ⟨xs, hxs⟩ := hend
    rw [trim, hstart, hxs, trimEnd_append hlast hlastWord]

theorem Cut.starts {p : Char → Bool} (h : Cut place cs ts) :
    startsWith p (trimStart (spaced ts)) = startsWith p (trimStart cs) := by
  induction h with
  | done => rfl
  | blank hblank _ ih =>
    rw [ih, trimStart, trimStart, List.dropWhile_cons_of_pos hblank]
  | @token place kind word cs ts hne hword _ _ =>
    have hspace : trimStart (spaced (⟨kind, String.ofList word, place⟩ :: ts)) =
        trimStart (word ++ spaced ts) := by
      rw [spaced_cons, trimStart, trimStart, List.dropWhile_cons_of_pos isBlank_space,
        String.toList_ofList]
    rw [hspace, trimStart_append hne hword, trimStart_append hne hword, startsWith_append hne,
      startsWith_append hne]

theorem scanFrom_space (next : ℕ) (ts : List Token) :
    ∃ past, scanFrom next (spaced ts) = scanFrom past (spaced ts).tail := by
  cases ts with
  | nil => exact ⟨next, rfl⟩
  | cons t ts => exact ⟨next + 1, scanFrom_blank⟩

/-- The tokens of a text, set apart, are cut into the same tokens again. -/
theorem scanFrom_spaced (h : scanFrom place cs = .ok ts) (next : ℕ) :
    ∃ us, scanFrom next (spaced ts).tail = .ok us ∧ us.map Token.word = ts.map Token.word := by
  fun_induction scanFrom place cs generalizing ts next with
  | case1 place =>
    cases h
    exact ⟨[], by rw [spaced, List.flatMap_nil, List.tail_nil, scanFrom], rfl⟩
  | case2 place c cs hc ih => exact ih h next
  | case3 place c cs hc f hf => cases h
  | case4 place c cs hc kind n hlex ih =>
    obtain ⟨ts, hts, rfl⟩ := map_ok h
    have hagain := lexeme_apart next (apart_spaced ts) hlex (scanFrom_cut hts).starts
    have hcut := scanFrom_lexeme (by simpa using hc) hagain
    obtain ⟨past, hpast⟩ := scanFrom_space (next + (c :: cs.take n).length) ts
    obtain ⟨us, hus, hsame⟩ := ih hts past
    rw [← hpast] at hus
    refine ⟨⟨kind, String.ofList (c :: cs.take n), next⟩ :: us, ?_, ?_⟩
    · rw [spaced_cons, List.tail_cons, String.toList_ofList, hcut, hus]
      rfl
    · rw [List.map_cons, List.map_cons, hsame]
      rfl

end

/-- Cutting a formula into tokens loses nothing. Each token is a slice of the formula without the
blanks at its ends, with a character at least; the slices stand in their order without overlap, and
what lies outside of them is blank. The words alone, with one space between two of them, are cut
into tokens of the same kinds and texts. -/
theorem scan_respaced (formula : String) (ts : List Token) (h : scan formula = .ok ts) :
    (∀ t ∈ ts, t.text ≠ "" ∧
      ((trim formula.toList).drop t.place).take t.text.length = t.text.toList) ∧
    (ts.Pairwise fun t u => t.place + t.text.length ≤ u.place) ∧
    (∀ (i : ℕ) (c : Char), (trim formula.toList)[i]? = some c →
      (∀ t ∈ ts, i < t.place ∨ t.place + t.text.length ≤ i) → isBlank c) ∧
    ∃ us, scan (" ".intercalate (ts.map (·.text))) = .ok us ∧
      us.map (fun t => (t.kind, t.text)) = ts.map fun t => (t.kind, t.text) := by
  have hcut := scanFrom_cut h
  refine ⟨fun t ht => ?_, hcut.pairwise, fun i c hi hfree => ?_, ?_⟩
  · obtain ⟨hne, -, hslice⟩ := hcut.slice ht
    exact ⟨fun hempty => hne (by rw [hempty]; rfl), hslice⟩
  · exact hcut.gap hi (by simpa using hfree)
  · obtain ⟨us, hus, hsame⟩ := scanFrom_spaced h 0
    refine ⟨us, ?_, ?_⟩
    · rw [scan, toList_intercalate, hcut.trim_spaced, hus]
    · have hword : (fun t : Token => (t.kind, t.text)) =
          (fun w : TokenKind × List Char => (w.1, String.ofList w.2)) ∘ Token.word := by
        funext t
        simp [Token.word]
      rw [hword, ← List.map_map, ← List.map_map, hsame]

theorem scan_respaced_power : ∃ ts, scan " 1e+5v2 A1 (" = .ok ts ∧
    (ts.map fun t => (t.kind, t.text)) =
      [(.number, "1e+5"), (.relative, "v2"), (.name, "A1"), (.openParen, "(")] ∧
    ∃ us, scan (" ".intercalate (ts.map (·.text))) = .ok us ∧
      us.map (fun t => (t.kind, t.text)) = ts.map fun t => (t.kind, t.text) := by
  have hscan : scan " 1e+5v2 A1 (" = .ok [⟨.number, "1e+5", 0⟩, ⟨.relative, "v2", 4⟩,
      ⟨.name, "A1", 7⟩, ⟨.openParen, "(", 10⟩] := by decide +kernel
  exact ⟨_, hscan, rfl, (scan_respaced _ _ hscan).2.2.2⟩

end GridCalc
