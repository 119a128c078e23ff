import GridCalc.Position.Name
import GridCalc.Proofs.Digits

/-!
# Names that are read back

Capital letters count as digits without a zero, and at most three of them with plain digits behind
name a cell, in the column that the letters count to and the row that the digits write. The letters
of a column count to its number, so the name of a position of the table stands for this position.
-/

set_option autoImplicit false

namespace GridCalc
open Text

/-- The number that capital letters count to, from one for A. -/
def lettersValue (letters : List Char) : ℕ :=
  letters.foldl (fun n c => 26 * n + (c.toNat - 'A'.toNat + 1)) 0

section

variable {cs letters digits : List Char}

theorem upper_columnLetter : ∀ d < 26,
    recase upperRuns upperWords (columnLetter d) = [columnLetter d] := by
  decide +kernel

theorem exists_columnLetter {c : Char} (h : isColumnLetter c) : ∃ d < 26, c = columnLetter d := by
  obtain ⟨hlow, hhigh⟩ : 65 ≤ c.toNat ∧ c.toNat ≤ 90 := by
    simpa [isColumnLetter, Char.le_def, UInt32.le_iff_toNat_le] using h
  refine ⟨c.toNat - 65, by omega, ?_⟩
  have hchar : 'A'.toNat + (c.toNat - 65) = c.toNat := by
    show 65 + (c.toNat - 65) = c.toNat
    omega
  rw [columnLetter, hchar, Char.ofNat_toNat]

theorem upper_letters (h : ∀ c ∈ cs, isColumnLetter c) :
    (upper (String.ofList cs)).toList = cs := by
  rw [upper, String.toList_ofList, String.toList_ofList]
  induction cs with
  | nil => rfl
  | cons c cs ih =>
    obtain ⟨d, hd, rfl⟩ := exists_columnLetter (h c (by simp))
    rw [List.flatMap_cons, upper_columnLetter d hd, ih fun x hx => h x (by simp [hx])]
    rfl

theorem lettersNumber?_letters (h : ∀ c ∈ cs, isColumnLetter c) (hne : cs ≠ []) :
    lettersNumber? cs = some (lettersValue cs) := by
  have hnumbers : cs.mapM letterNumber? = some (cs.map (·.toNat - 'A'.toNat + 1)) := by
    clear hne
    induction cs with
    | nil => rfl
    | cons c cs ih =>
      rw [List.mapM_cons, ih fun x hx => h x (by simp [hx]), letterNumber?, if_pos (h c (by simp))]
      rfl
  rw [lettersNumber?, hnumbers, Option.bind_some, if_neg (by simpa using hne), List.foldl_map]
  rfl

theorem columnNumber_letters (h : ∀ c ∈ cs, isColumnLetter c) (hne : cs ≠ []) :
    columnNumber (String.ofList cs) = if cs.length ≤ 3 then .ok (lettersValue cs)
      else .error (.columnName (String.ofList cs)) := by
  unfold columnNumber
  rw [String.length_ofList, upper_letters h]
  dsimp only
  by_cases hlength : cs.length ≤ 3
  · rw [if_neg (by omega), if_pos hlength, Nat.sub_eq_zero_of_le hlength, List.drop_zero,
      lettersNumber?_letters h hne]
  · rw [if_pos (by omega), if_neg hlength]

theorem isColumnLetter_of_isPlainDigit {c : Char} (h : isPlainDigit c) :
    isColumnLetter c = false := by
  obtain ⟨-, hhigh⟩ := toNat_of_isPlainDigit h
  have hlow : ¬ 'A' ≤ c := fun hle => by
    have : (65 : ℕ) ≤ c.toNat := hle
    omega
  simp [isColumnLetter, hlow]

theorem isPlainDigit_of_isColumnLetter {c : Char} (h : isColumnLetter c) :
    isPlainDigit c = false := by
  cases hc : isPlainDigit c with
  | false => rfl
  | true => simp [isColumnLetter_of_isPlainDigit hc] at h

theorem split_letters (hletters : ∀ c ∈ letters, isColumnLetter c)
    (hdigits : ∀ c ∈ digits, isPlainDigit c) :
    (letters ++ digits).takeWhile isColumnLetter = letters ∧
      (letters ++ digits).dropWhile isColumnLetter = digits := by
  have hback : digits.takeWhile isColumnLetter = [] ∧ digits.dropWhile isColumnLetter = digits := by
    cases digits with
    | nil => exact ⟨rfl, rfl⟩
    | cons d ds => simp [isColumnLetter_of_isPlainDigit (hdigits d (by simp))]
  rw [List.takeWhile_append_of_pos hletters, List.dropWhile_append_of_pos hletters, hback.1,
    hback.2, List.append_nil]
  exact ⟨rfl, rfl⟩

theorem isCellName_letters (hl : letters ≠ []) (hletters : ∀ c ∈ letters, isColumnLetter c)
    (hd : digits ≠ []) (hdigits : ∀ c ∈ digits, isPlainDigit c) :
    isCellName (letters ++ digits) := by
  obtain ⟨hfront, hback⟩ := split_letters hletters hdigits
  have hdecimal : digits.all isDecimal := List.all_eq_true.2 fun c hc =>
    isDecimal_of_isPlainDigit (hdigits c hc)
  simp [isCellName, hfront, hback, hl, hd, hdecimal]

theorem takeWhile_reverse_letters (hletters : ∀ c ∈ letters, isColumnLetter c)
    (hdigits : ∀ c ∈ digits, isPlainDigit c) :
    (letters ++ digits).reverse.takeWhile isPlainDigit = digits.reverse := by
  have hfront : letters.reverse.takeWhile isPlainDigit = [] := by
    cases hr : letters.reverse with
    | nil => rfl
    | cons c cs =>
      have hc := hletters c (List.mem_reverse.1 (by simp [hr]))
      rw [List.takeWhile_cons_of_neg (by simp [isPlainDigit_of_isColumnLetter hc])]
  rw [List.reverse_append, List.takeWhile_append_of_pos (by simpa using hdigits), hfront,
    List.append_nil]

theorem ofName?_letters (hl : letters ≠ [])
    (hletters : ∀ c ∈ letters, isColumnLetter c) (hd : digits ≠ [])
    (hdigits : ∀ c ∈ digits, isPlainDigit c) {s : String} (hs : s.toList = letters ++ digits) :
    Position.ofName? s = if digits.length ≤ digitBound then
      .ok (if 1 ≤ plainValue digits ∧ letters.length ≤ 3 then
        some ⟨plainValue digits - 1, lettersValue letters - 1⟩ else none)
      else .error (.digitsRead digits.length) := by
  have hback : ((letters ++ digits).reverse.takeWhile isPlainDigit).reverse = digits := by
    rw [takeWhile_reverse_letters hletters hdigits, List.reverse_reverse]
  unfold Position.ofName?
  rw [hs]
  dsimp only
  rw [hback, isCellName_letters hl hletters hd hdigits, natural_plain hdigits hd,
    List.length_append, Nat.add_sub_cancel, List.take_left, columnNumber_letters hletters hl]
  by_cases hshort : digits.length ≤ digitBound
  · rw [if_pos hshort, if_pos hshort]
    cases hvalue : plainValue digits with
    | zero => rfl
    | succ row =>
      by_cases hlength : letters.length ≤ 3
      · simp [hlength]
      · simp [hlength]
  · rw [if_neg hshort, if_neg hshort]
    rfl

end

section

variable {k n : ℕ}

/-- The number of columns whose names have at most `k` letters. -/
def reach : ℕ → ℕ
  | 0 => 0
  | k + 1 => 26 * reach k + 26

theorem isColumnLetter_columnLetter : ∀ d < 26, isColumnLetter (columnLetter d) := by
  decide

theorem columnLetters_mem {c : Char} (h : c ∈ columnLetters k n) :
    ∃ d < 26, c = columnLetter d := by
  induction k generalizing n with
  | zero => simp [columnLetters] at h
  | succ k ih =>
    cases n with
    | zero => simp [columnLetters] at h
    | succ n =>
      rw [columnLetters, List.mem_append, List.mem_singleton] at h
      rcases h with h | rfl
      · exact ih h
      · exact ⟨n % 26, Nat.mod_lt _ (by decide), rfl⟩

theorem length_columnLetters (k n : ℕ) : (columnLetters k n).length ≤ k := by
  induction k generalizing n with
  | zero => simp [columnLetters]
  | succ k ih =>
    cases n with
    | zero => simp [columnLetters]
    | succ n => simpa [columnLetters] using ih (n / 26)

theorem lettersValue_columnLetters (h : n ≤ reach k) : lettersValue (columnLetters k n) = n := by
  have hletter : ∀ d < 26, (columnLetter d).toNat - 'A'.toNat + 1 = d + 1 := by decide
  induction k generalizing n with
  | zero =>
    obtain rfl : n = 0 := Nat.le_zero.1 h
    rfl
  | succ k ih =>
    cases n with
    | zero => rfl
    | succ n =>
      rw [reach] at h
      have hvalue : lettersValue (columnLetters k (n / 26)) = n / 26 := ih (by omega)
      unfold lettersValue at hvalue ⊢
      rw [columnLetters, List.foldl_append, hvalue, List.foldl_cons, List.foldl_nil,
        hletter _ (Nat.mod_lt n (by decide))]
      omega

theorem isPlainDigit_of_mem_toDigits {c : Char} (h : c ∈ Nat.toDigits 10 n) : isPlainDigit c := by
  rw [← Decimal.digitText_digitsOf] at h
  exact Decimal.isPlainDigit_of_mem (Decimal.digital_digitsOf _) c h

theorem plainValue_toDigits (n : ℕ) : plainValue (Nat.toDigits 10 n) = n := by
  have hplain := digitValues?_plain (fun c hc => isPlainDigit_of_mem_toDigits hc)
    (Nat.toDigits_ne_nil (n := n) (b := 10))
  rw [← Decimal.digitText_digitsOf,
    Decimal.digitValues?_digitText (Decimal.digital_digitsOf _) (Decimal.digitsOf_ne_nil _)]
    at hplain
  rw [← ofDigits_plain, ← Decimal.digitText_digitsOf, ← Option.some.inj hplain,
    Decimal.ofDigits_digitsOf]

/-- A position of the table in a column that has a name and in a row whose number is not too
long. -/
structure Position.IsWritable (p : Position) : Prop where
  row : 0 ≤ p.row
  column : 0 ≤ p.column
  named : p.column < columnCount
  fits : Text.fits (p.row + 1)

def Position.letters (p : Position) : List Char := columnLetters 3 (p.column + 1).toNat

def Position.digits (p : Position) : List Char := Nat.toDigits 10 (p.row + 1).toNat

variable {p : Position}

theorem Position.IsWritable.name (h : p.IsWritable) :
    p.name = .ok (String.ofList (p.letters ++ p.digits)) := by
  obtain ⟨hrow, hcolumn, hnamed, hfits⟩ := h
  have hnumber : 1 ≤ p.column + 1 ∧ p.column + 1 ≤ columnCount := by omega
  obtain ⟨r, hr⟩ : ∃ r : ℕ, p.row + 1 = r := ⟨(p.row + 1).toNat, by omega⟩
  rw [Position.name, if_neg (by omega), columnName, if_pos hnumber,
    integerName_ok.2 ⟨hfits, rfl⟩, Position.letters, Position.digits, hr, String.ofList_append]
  rfl

theorem Position.IsWritable.length_digits (h : p.IsWritable) :
    p.digits.length ≤ digitBound := by
  have hrow := h.row
  have hnumber : (p.row + 1).toNat = (p.row + 1).natAbs := by omega
  rw [Position.digits, hnumber]
  exact of_decide_eq_true h.fits

theorem Position.IsWritable.letters_ne_nil (h : p.IsWritable) : p.letters ≠ [] := by
  obtain ⟨c, hc⟩ : ∃ c, (p.column + 1).toNat = c + 1 := ⟨p.column.toNat, by have := h.column; omega⟩
  rw [Position.letters, hc, columnLetters]
  simp

theorem Position.isColumnLetter_of_mem {c : Char} (h : c ∈ p.letters) : isColumnLetter c := by
  obtain ⟨d, hd, rfl⟩ := columnLetters_mem h
  exact isColumnLetter_columnLetter d hd

theorem Position.isPlainDigit_of_mem {c : Char} (h : c ∈ p.digits) : isPlainDigit c := by
  exact isPlainDigit_of_mem_toDigits h

theorem Position.digits_ne_nil (p : Position) : p.digits ≠ [] := Nat.toDigits_ne_nil

theorem Position.IsWritable.ofName? (h : p.IsWritable) :
    Position.ofName? (String.ofList (p.letters ++ p.digits)) = .ok (some p) := by
  have hrow := h.row
  have hcolumn := h.column
  have hnamed : (p.column + 1).toNat ≤ reach 3 := by
    have hcount : p.column < 18278 := h.named
    show (p.column + 1).toNat ≤ 18278
    omega
  have hletters : lettersValue p.letters = (p.column + 1).toNat := lettersValue_columnLetters hnamed
  have hdigits : plainValue p.digits = (p.row + 1).toNat := plainValue_toDigits _
  have hlength : p.letters.length ≤ 3 := length_columnLetters 3 _
  rw [ofName?_letters h.letters_ne_nil (fun _ => Position.isColumnLetter_of_mem) p.digits_ne_nil
    (fun _ => Position.isPlainDigit_of_mem) String.toList_ofList, if_pos h.length_digits, hletters,
    hdigits, if_pos ⟨by omega, hlength⟩]
  have hposition :
      (⟨((p.row + 1).toNat : ℤ) - 1, ((p.column + 1).toNat : ℤ) - 1⟩ : Position) = p := by
    rcases p with ⟨row, column⟩
    simp only [Position.mk.injEq]
    dsimp only at hrow hcolumn
    omega
  rw [hposition]

end

end GridCalc
