import GridCalc.Proofs.Naming

/-!
# One name for each position

A name is read in two halves, and each half can be written again. The letters are the digits from
A to Z of a number without a zero digit, so the number has no other letters. The digits are those
of the row, after any zeros in front of them. A position left of the table or above it is written
with a `C` behind its row, which is no decimal digit, so its name is none of a cell.
-/

set_option autoImplicit false

namespace GridCalc
open Text

section

variable {cs ds : List Char} {c : Char} {k : ℕ}

theorem lettersValue_append (cs : List Char) (c : Char) :
    lettersValue (cs ++ [c]) = 26 * lettersValue cs + (c.toNat - 'A'.toNat + 1) := by
  simp [lettersValue, List.foldl_append]

theorem lettersValue_pos (hne : cs ≠ []) : 1 ≤ lettersValue cs := by
  obtain ⟨front, c, rfl⟩ := (List.eq_nil_or_concat' cs).resolve_left hne
  rw [lettersValue_append]
  omega

theorem columnLetters_lettersValue (h : ∀ c ∈ cs, isColumnLetter c) (hlength : cs.length ≤ k) :
    columnLetters k (lettersValue cs) = cs ∧ lettersValue cs ≤ reach k := by
  have hletter : ∀ d < 26, (columnLetter d).toNat - 'A'.toNat + 1 = d + 1 := by decide
  induction cs using List.reverseRecOn generalizing k with
  | nil => cases k <;> exact ⟨rfl, Nat.zero_le _⟩
  | append_singleton cs c ih =>
    obtain ⟨d, hd, rfl⟩ := exists_columnLetter (h c (by simp))
    rw [List.length_append, List.length_singleton] at hlength
    cases k with
    | zero => omega
    | succ k =>
      obtain ⟨hfront, hreach⟩ :=
        ih (fun x hx => h x (by simp [hx])) (Nat.le_of_succ_le_succ hlength)
      rw [lettersValue_append, hletter d hd, ← Nat.add_assoc, columnLetters, reach]
      have hquotient : (26 * lettersValue cs + d) / 26 = lettersValue cs := by omega
      have hremainder : (26 * lettersValue cs + d) % 26 = d := by omega
      rw [hquotient, hremainder, hfront]
      exact ⟨rfl, by omega⟩

theorem isPlainDigit_of_isDecimal (h : isDecimal c) (hc : c.toNat < 128) : isPlainDigit c := by
  have hzeros : ∀ z ∈ zeros, z = 48 ∨ 128 ≤ z := by decide
  obtain ⟨d, hd⟩ := Option.isSome_iff_exists.1 h
  obtain ⟨z, hz, -⟩ := Option.map_eq_some_iff.1 hd
  have hrange := List.find?_some hz
  rw [Bool.and_eq_true, decide_eq_true_iff, decide_eq_true_iff] at hrange
  obtain rfl : z = 48 := by
    rcases hzeros z (List.mem_of_find?_eq_some hz) with rfl | hlarge
    · rfl
    · omega
  have hlow : '0' ≤ c := hrange.1
  have hhigh : c ≤ '9' := (Nat.lt_succ_iff.1 hrange.2 : c.toNat ≤ 57)
  simp [isPlainDigit, hlow, hhigh]

theorem toDigits_digit (h : isPlainDigit c) : c.toNat - '0'.toNat < 10 ∧
    Nat.toDigits 10 (c.toNat - '0'.toNat) = [c] := by
  have hdigit : ∀ n < 58, 48 ≤ n → Nat.toDigits 10 (n - 48) = [Char.ofNat n] := by decide
  obtain ⟨hlow, hhigh⟩ := toNat_of_isPlainDigit h
  have hvalue := hdigit c.toNat (by omega) hlow
  rw [Char.ofNat_toNat] at hvalue
  have hzero : '0'.toNat = 48 := rfl
  exact ⟨by omega, hvalue⟩

theorem toDigits_foldl {n : ℕ} (h : ∀ c ∈ ds, isPlainDigit c) (hn : 0 < n) :
    Nat.toDigits 10 (ds.foldl (fun n c => 10 * n + (c.toNat - '0'.toNat)) n) =
      Nat.toDigits 10 n ++ ds := by
  induction ds generalizing n with
  | nil => simp
  | cons c ds ih =>
    have hc := toDigits_digit (h c (by simp))
    have hlast : c.toNat - '0'.toNat < 10 := hc.1
    calc Nat.toDigits 10 ((c :: ds).foldl (fun n c => 10 * n + (c.toNat - '0'.toNat)) n)
        = Nat.toDigits 10 (10 * n + (c.toNat - '0'.toNat)) ++ ds :=
          ih (fun x hx => h x (by simp [hx])) (Nat.add_pos_left (Nat.mul_pos (by decide) hn) _)
      _ = Nat.toDigits 10 n ++ Nat.toDigits 10 (c.toNat - '0'.toNat) ++ ds := by
          rw [Nat.toDigits_append_toDigits (by decide) hn hlast]
      _ = Nat.toDigits 10 n ++ c :: ds := by rw [hc.2, List.append_assoc]; rfl

theorem toDigits_plainValue (h : ∀ c ∈ ds, isPlainDigit c) (hvalue : 1 ≤ plainValue ds) :
    Nat.toDigits 10 (plainValue ds) = ds.dropWhile (· == '0') := by
  induction ds with
  | nil => exact absurd hvalue (by decide)
  | cons c ds ih =>
    have hds : ∀ x ∈ ds, isPlainDigit x := fun x hx => h x (by simp [hx])
    by_cases hzero : c = '0'
    · subst hzero
      exact ih hds hvalue
    · have hc := toDigits_digit (h c (by simp))
      have hfirst : 0 < c.toNat - '0'.toNat := by
        refine Nat.pos_of_ne_zero fun hnone => hzero ?_
        have := hc.2
        rw [hnone] at this
        simpa using this.symm
      have hvalue : plainValue (c :: ds) =
          ds.foldl (fun n c => 10 * n + (c.toNat - '0'.toNat)) (c.toNat - '0'.toNat) := by
        rw [plainValue, List.foldl_cons, Nat.mul_zero, Nat.zero_add]
      rw [hvalue, toDigits_foldl hds hfirst, hc.2,
        List.dropWhile_cons_of_neg (by simpa using hzero)]
      rfl

theorem mem_repr {n : ℤ} (h : c ∈ n.repr.toList) : c = '-' ∨ isPlainDigit c := by
  cases n with
  | ofNat n =>
    have hc : c ∈ Nat.toDigits 10 n := Nat.toList_repr ▸ h
    exact .inr (isPlainDigit_of_mem_toDigits hc)
  | negSucc n =>
    have hc : c ∈ ('-' :: Nat.toDigits 10 (n + 1)) := by
      simpa [Int.repr, Nat.toList_repr] using h
    exact (List.mem_cons.1 hc).imp_right isPlainDigit_of_mem_toDigits

theorem repr_ne_nil (n : ℤ) : n.repr.toList ≠ [] := by
  cases n with
  | ofNat n => exact Nat.toList_repr (n := n) ▸ Nat.toDigits_ne_nil
  | negSucc n => simp [Int.repr]

theorem not_isColumnLetter_of_mem_repr {n : ℤ} (h : c ∈ n.repr.toList) :
    isColumnLetter c = false := by
  rcases mem_repr h with rfl | hc
  · decide
  · exact isColumnLetter_of_isPlainDigit hc

end

namespace Position

/-- A position above the table or left of it, neither of whose numbers is too long. -/
structure IsOutside (p : Position) : Prop where
  negative : p.row < 0 ∨ p.column < 0
  row : Text.fits (p.row + 1)
  column : Text.fits (p.column + 1)

def shortest (s : String) : String :=
  String.ofList (s.toList.takeWhile isColumnLetter ++
    (s.toList.dropWhile isColumnLetter).dropWhile (· == '0'))

variable {p q : Position} {s t : String}

theorem named_cases (h : p.name = .ok s) : p.IsWritable ∨ p.IsOutside := by
  unfold name at h
  split at h
  · next hnegative =>
    obtain ⟨row, hrow, h⟩ := ok_of_bind h
    obtain ⟨column, hcolumn, -⟩ := ok_of_bind h
    exact .inr ⟨hnegative, (integerName_ok.1 hrow).1, (integerName_ok.1 hcolumn).1⟩
  · next hinside =>
    obtain ⟨letters, hletters, h⟩ := ok_of_bind h
    obtain ⟨row, hrow, -⟩ := ok_of_bind h
    unfold columnName at hletters
    split at hletters
    · exact .inl ⟨by omega, by omega, by omega, (integerName_ok.1 hrow).1⟩
    · cases hletters

def outsideName (p : Position) : List Char :=
  'R' :: ((p.row + 1).repr.toList ++ 'C' :: (p.column + 1).repr.toList)

theorem IsOutside.name (h : p.IsOutside) : p.name = .ok (String.ofList p.outsideName) := by
  have htoString : ∀ n : ℤ, toString n = n.repr := fun _ => rfl
  have hself : ∀ s : String, toString s = s := fun _ => rfl
  rw [Position.name, if_pos h.negative, integerName_ok.2 ⟨h.row, rfl⟩,
    integerName_ok.2 ⟨h.column, rfl⟩]
  refine congrArg Except.ok (String.toList_inj.1 ?_)
  simp [outsideName, htoString, hself]

theorem not_isCellName_outsideName (p : Position) : isCellName p.outsideName = false := by
  -- The letter in front of the column is no digit of the row.
  obtain ⟨c, cs, hrow⟩ : ∃ c cs, (p.row + 1).repr.toList = c :: cs :=
    List.exists_cons_of_ne_nil (repr_ne_nil _)
  have hc : isColumnLetter c = false :=
    not_isColumnLetter_of_mem_repr (n := p.row + 1) (by simp [hrow])
  have hback : p.outsideName.dropWhile isColumnLetter =
      c :: cs ++ 'C' :: (p.column + 1).repr.toList := by
    rw [outsideName, hrow, List.dropWhile_cons_of_pos (by decide), List.cons_append,
      List.dropWhile_cons_of_neg (by simp [hc])]
  have hdecimal : isDecimal 'C' = false := by decide
  simp [isCellName, hback, hdecimal]

theorem ofName?_eq_none (h : isCellName s.toList = false) : Position.ofName? s = .ok none := by
  unfold Position.ofName?
  dsimp only
  rw [h]
  rfl

theorem IsOutside.ofName? (h : p.IsOutside) (hname : p.name = .ok s) :
    Position.ofName? s = .ok none := by
  rw [h.name] at hname
  obtain rfl := Except.ok.inj hname
  exact ofName?_eq_none (by rw [String.toList_ofList, not_isCellName_outsideName])

theorem outsideName_injective (h : p.outsideName = q.outsideName) : p = q := by
  have hfree : ∀ n : ℤ, 'C' ∉ n.repr.toList := fun n hmem =>
    absurd (not_isColumnLetter_of_mem_repr hmem) (by decide)
  rw [outsideName, outsideName, List.cons_inj_right,
    List.append_cons_inj_of_notMem (hfree _) (hfree _)] at h
  obtain ⟨hrow, -, hcolumn⟩ := h
  have hrow := Int.repr_inj.1 (String.toList_inj.1 hrow)
  have hcolumn := Int.repr_inj.1 (String.toList_inj.1 hcolumn)
  rcases p with ⟨row, column⟩
  rcases q with ⟨row', column'⟩
  simp only [Position.mk.injEq] at hrow hcolumn ⊢
  omega

theorem IsWritable.ofName?_name (h : p.IsWritable) (hname : p.name = .ok s) :
    Position.ofName? s = .ok (some p) := by
  rw [h.name] at hname
  obtain rfl := Except.ok.inj hname
  exact h.ofName?

theorem name_injective (hp : p.name = .ok s) (hq : q.name = .ok s) : p = q := by
  rcases named_cases hp with hinside | houtside
  · have hread := hinside.ofName?_name hp
    rcases named_cases hq with hinside' | houtside'
    · rw [hinside'.ofName?_name hq] at hread
      simpa using hread.symm
    · rw [houtside'.ofName? hq] at hread
      cases hread
  · have hread := houtside.ofName? hp
    rcases named_cases hq with hinside' | houtside'
    · rw [hinside'.ofName?_name hq] at hread
      cases hread
    · rw [houtside.name] at hp
      rw [houtside'.name, ← hp] at hq
      exact outsideName_injective (String.ofList_injective (Except.ok.inj hq)).symm

theorem ofName?_split (hascii : ∀ c ∈ s.toList, c.toNat < 128)
    (h : Position.ofName? s = .ok (some p)) :
    ∃ letters digits, s.toList = letters ++ digits ∧ (∀ c ∈ letters, isColumnLetter c) ∧
      (∀ c ∈ digits, isPlainDigit c) ∧ letters ≠ [] ∧ letters.length ≤ 3 ∧
      digits.length ≤ digitBound ∧ 1 ≤ plainValue digits ∧
      p = ⟨plainValue digits - 1, lettersValue letters - 1⟩ := by
  have hform : isCellName s.toList := by
    by_contra hform
    rw [ofName?_eq_none (Bool.eq_false_iff.2 hform)] at h
    cases h
  obtain ⟨⟨hl, hd⟩, hdecimal⟩ : ((s.toList.takeWhile isColumnLetter ≠ [] ∧
      s.toList.dropWhile isColumnLetter ≠ []) ∧
      (s.toList.dropWhile isColumnLetter).all isDecimal) := by
    simpa [isCellName] using hform
  have hletters : ∀ c ∈ s.toList.takeWhile isColumnLetter, isColumnLetter c := fun c hc =>
    List.all_eq_true.1 List.all_takeWhile c hc
  have hdigits : ∀ c ∈ s.toList.dropWhile isColumnLetter, isPlainDigit c := fun c hc =>
    isPlainDigit_of_isDecimal (List.all_eq_true.1 hdecimal c hc)
      (hascii c (List.dropWhile_suffix _ |>.subset hc))
  have hsplit := (List.takeWhile_append_dropWhile (p := isColumnLetter) (l := s.toList)).symm
  rw [ofName?_letters hl hletters hd hdigits hsplit] at h
  split at h
  · next hshort =>
    have hcell := Except.ok.inj h
    split at hcell
    · next hbounds =>
      exact ⟨_, _, hsplit, hletters, hdigits, hl, hbounds.2, hshort, hbounds.1,
        (Option.some.inj hcell).symm⟩
    · cases hcell
  · cases h

/-- A position is named as it was written, but for the zeros in front of the row. -/
theorem name_of_ofName? (hascii : ∀ c ∈ s.toList, c.toNat < 128)
    (h : Position.ofName? s = .ok (some p)) : p.name = .ok (shortest s) := by
  obtain ⟨letters, digits, hs, hletters, hdigits, hl, hlength, hshort, hvalue, rfl⟩ :=
    ofName?_split hascii h
  obtain ⟨hback, hreach⟩ := columnLetters_lettersValue hletters hlength
  have hfirst := lettersValue_pos hl
  have hcount : lettersValue letters ≤ columnCount := hreach
  -- a row has no more digits than it was written with
  have hfits : Text.fits ((plainValue digits : ℤ) - 1 + 1) := by
    have hdropped := (List.dropWhile_suffix (· == '0') (l := digits)).length_le
    rw [← toDigits_plainValue hdigits hvalue] at hdropped
    rw [Int.sub_add_cancel]
    exact decide_eq_true (hdropped.trans hshort)
  have hinside : IsWritable ⟨plainValue digits - 1, lettersValue letters - 1⟩ :=
    ⟨by simpa using hvalue, by simpa using hfirst, by dsimp only; omega, hfits⟩
  obtain ⟨hfront, hrest⟩ := split_letters hletters hdigits
  rw [hinside.name, shortest, hs, hfront, hrest, ← toDigits_plainValue hdigits hvalue,
    Position.letters, Position.digits]
  simp [hback]

/-- Positions and their names correspond. The position of a cell in one of the columns that have a
name and in a row whose number is not too long is read from its name. A name of the first 128
characters that a position is read from is the name of this position, but for the zeros in front of
its row. No two positions have one name, and the name that a position outside of the table has
unless one of its numbers is too long stands for no cell, nor is it the name of one. -/
theorem name_corresponds :
    (∀ p : Position, 0 ≤ p.row → 0 ≤ p.column → p.column < columnCount →
      Text.fits (p.row + 1) → ∃ s, p.name = .ok s ∧ Position.ofName? s = .ok (some p)) ∧
    (∀ (s : String) (p : Position), (∀ c ∈ s.toList, c.toNat < 128) →
      Position.ofName? s = .ok (some p) → p.name = .ok (shortest s)) ∧
    (∀ (p q : Position) (s : String), p.name = .ok s → q.name = .ok s → p = q) ∧
    ∀ p : Position, p.row < 0 ∨ p.column < 0 → Text.fits (p.row + 1) →
      Text.fits (p.column + 1) → ∃ s, p.name = .ok s ∧ Position.ofName? s = .ok none ∧
        ∀ q : Position, 0 ≤ q.row → 0 ≤ q.column → q.name ≠ .ok s := by
  refine ⟨fun p hrow hcolumn hnamed hfits => ?_, fun s p => name_of_ofName?,
    fun p q s => name_injective, fun p hnegative hrow hcolumn => ?_⟩
  · have hinside : p.IsWritable := ⟨hrow, hcolumn, hnamed, hfits⟩
    exact ⟨_, hinside.name, hinside.ofName?⟩
  · have houtside : p.IsOutside := ⟨hnegative, hrow, hcolumn⟩
    refine ⟨_, houtside.name, houtside.ofName? houtside.name, fun q hrow hcolumn hq => ?_⟩
    obtain rfl := name_injective houtside.name hq
    omega

theorem name_corresponds_edges :
    (∃ s, (⟨9, 701⟩ : Position).name = .ok s ∧ Position.ofName? s = .ok (some ⟨9, 701⟩)) ∧
    (⟨6, 702⟩ : Position).name = .ok "AAA7" ∧
    (∀ p : Position, p.name = .ok "ZZ10" → p = ⟨9, 701⟩) ∧
    ∃ s, (⟨2, -1⟩ : Position).name = .ok s ∧ Position.ofName? s = .ok none ∧
      ∀ q : Position, 0 ≤ q.row → 0 ≤ q.column → q.name ≠ .ok s := by
  have hread : Position.ofName? "AAA007" = .ok (some ⟨6, 702⟩) :=
    (@ofName?_letters ['A', 'A', 'A'] ['0', '0', '7'] (by decide) (by simp [isColumnLetter])
      (by decide) (by simp [isPlainDigit]) "AAA007" (by simp)).trans (by decide)
  have hname : (⟨9, 701⟩ : Position).name = .ok "ZZ10" := by decide +kernel
  have hshort : shortest "AAA007" = "AAA7" := by decide +kernel
  obtain ⟨hback, hforth, hone, houtside⟩ := name_corresponds
  exact ⟨hback ⟨9, 701⟩ (by decide) (by decide) (by decide) (by decide),
    hshort ▸ hforth "AAA007" ⟨6, 702⟩ (by simp) hread,
    fun p hp => hone p ⟨9, 701⟩ "ZZ10" hp hname,
    houtside ⟨2, -1⟩ (by decide) (by decide) (by decide)⟩

/-- The first row whose number is too long has no names. -/
theorem name_longRow :
    (⟨10 ^ digitBound - 1, 0⟩ : Position).name = .error .digitsWritten ∧
      ¬ ∀ p : Position, 0 ≤ p.row → 0 ≤ p.column → p.column < columnCount →
        ∃ s, p.name = .ok s ∧ Position.ofName? s = .ok (some p) := by
  have hpos : (0 : ℤ) < 10 ^ digitBound := pow_pos (by decide) _
  have hlong : ¬ Text.fits ((10 : ℤ) ^ digitBound - 1 + 1) := by
    have hten : (10 : ℤ).natAbs = 10 := rfl
    rw [Int.sub_add_cancel, fits, decide_eq_true_iff,
      Nat.length_toDigits_le_iff (by decide) (by decide), Int.natAbs_pow, hten]
    exact lt_irrefl _
  have hname : (⟨10 ^ digitBound - 1, 0⟩ : Position).name = .error .digitsWritten := by
    rw [name, if_neg (by dsimp only; omega), columnName, if_pos (by decide), integerName,
      if_neg hlong]
    rfl
  refine ⟨hname, fun h => ?_⟩
  obtain ⟨s, hs, -⟩ := h ⟨10 ^ digitBound - 1, 0⟩ (by dsimp only; omega) (by decide) (by decide)
  rw [hname] at hs
  cases hs

end Position

end GridCalc
