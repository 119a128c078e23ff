import GridCalc.Decimal.Layout
import GridCalc.Proofs.Numerals
import GridCalc.Proofs.Shortest

/-!
# Digits that read back

Whatever way the digits of a double are set out, their text writes the same number. So a finite
double without a sign, written out as it stands in a formula, is read as itself. The other way
round, a text without a sign in front is never read as a negative number.
-/

set_option autoImplicit false

namespace GridCalc.Decimal
open GridCalc.Text

section

variable {ds fs : List ℕ}

def Digital (ds : List ℕ) : Prop := ∀ d ∈ ds, d < 10

theorem isPlainDigit_ofNat : ∀ d < 10, isPlainDigit (Char.ofNat (48 + d)) ∧
    (Char.ofNat (48 + d)).toNat - 48 = d := by
  decide

theorem isPlainDigit_of_mem (h : Digital ds) : ∀ c ∈ digitText ds, isPlainDigit c := by
  intro c hc
  obtain ⟨d, hd, rfl⟩ := List.mem_map.1 hc
  exact (isPlainDigit_ofNat d (h d hd)).1

theorem decimals_digitText (h : Digital ds) : Decimals (digitText ds) :=
  fun c hc => isDecimal_of_isPlainDigit (isPlainDigit_of_mem h c hc)

theorem digitValues?_cons {c : Char} {cs : List Char} {d : ℕ} {ds : List ℕ} (hcs : Decimals cs)
    (hd : digitValue? c = some d) (hds : digitValues? cs = some ds) :
    digitValues? (c :: cs) = some (d :: ds) := by
  cases cs with
  | nil => cases hds
  | cons c' cs =>
    have hc' : c' ≠ '_' := ne_of_isDecimal (hcs c' (by simp)) (by simp)
    rw [digitValues?]
    · rw [hd, hds]
    · simp
    · simpa using hc'

theorem digitValues?_digitText (h : Digital ds) (hne : ds ≠ []) :
    digitValues? (digitText ds) = some ds := by
  induction ds with
  | nil => exact absurd rfl hne
  | cons d ds ih =>
    obtain ⟨hplain, hvalue⟩ := isPlainDigit_ofNat d (h d (by simp))
    have hd : digitValue? (Char.ofNat (48 + d)) = some d := by
      rw [digitValue?_of_isPlainDigit hplain, hvalue]
    have hds : Digital ds := fun x hx => h x (by simp [hx])
    cases ds with
    | nil => simp [digitText, digitValues?, hd]
    | cons d' ds => exact digitValues?_cons (decimals_digitText hds) hd (ih hds (by simp))

theorem side?_digitText (h : Digital ds) : side? (digitText ds) = some ds := by
  by_cases hne : ds = []
  · subst hne
    rfl
  · rw [side?, if_neg (by simpa [digitText] using hne), digitValues?_digitText h hne]

theorem digitText_append (ds fs : List ℕ) : digitText (ds ++ fs) = digitText ds ++ digitText fs :=
  List.map_append

theorem zerosText_eq (n : ℕ) : zerosText n = digitText (List.replicate n 0) := by
  simp [zerosText, digitText]

theorem ofDigits_append (ds fs : List ℕ) :
    ofDigits (ds ++ fs) = ofDigits ds * 10 ^ fs.length + ofDigits fs := by
  have hfrom : ∀ (fs : List ℕ) (n : ℕ),
      fs.foldl (fun n d => 10 * n + d) n = n * 10 ^ fs.length + ofDigits fs := by
    intro fs
    induction fs with
    | nil => simp [ofDigits]
    | cons f fs ih =>
      intro n
      simp only [ofDigits, List.foldl_cons, List.length_cons] at ih ⊢
      rw [ih, ih (10 * 0 + f)]
      ring
  rw [ofDigits, List.foldl_append, hfrom fs]
  rfl

theorem ofDigits_replicate (n : ℕ) : ofDigits (List.replicate n 0) = 0 := by
  induction n with
  | zero => rfl
  | succ n ih => rw [List.replicate_succ', ofDigits_append, ih]; rfl

theorem isDigit_mem_toDigits {c : Char} {n : ℕ} (h : c ∈ Nat.toDigits 10 n) :
    48 ≤ c.toNat ∧ c.toNat ≤ 57 := by
  have hc := Nat.isDigit_of_mem_toDigits (by norm_num) (by norm_num) h
  simpa [Char.isDigit, UInt32.le_iff_toNat_le] using hc

theorem digital_digitsOf (n : ℕ) : Digital (digitsOf n) := by
  intro d hd
  obtain ⟨c, hc, rfl⟩ := List.mem_map.1 hd
  have := isDigit_mem_toDigits hc
  omega

theorem digitsOf_ne_nil (n : ℕ) : digitsOf n ≠ [] := by
  simp [digitsOf]

theorem ofDigits_digitsOf (n : ℕ) : ofDigits (digitsOf n) = n := by
  rw [ofDigits, digitsOf, List.foldl_map]
  exact Nat.ofDigitChars_ten_toDigits

theorem digitText_digitsOf (n : ℕ) : digitText (digitsOf n) = Nat.toDigits 10 n := by
  rw [digitText, digitsOf, List.map_map]
  refine (List.map_congr_left fun c hc => ?_).trans (List.map_id _)
  obtain ⟨hlow, hhigh⟩ := isDigit_mem_toDigits hc
  have : 48 + (c.toNat - 48) = c.toNat := by omega
  simp [this]

/-- The number that digits are the digits of. -/
def Digits.amount (d : Digits) : ℚ :=
  ofDigits d.digits * 10 ^ (d.exponent - (d.digits.length - 1))

structure Digits.Sound (d : Digits) : Prop where
  nonempty : d.digits ≠ []
  digital : Digital d.digits

theorem dropLastZeros_append (h : ofDigits ds ≠ 0) :
    ∃ k, ds = dropLastZeros ds ++ List.replicate k 0 ∧ dropLastZeros ds ≠ [] := by
  have hzeros : ds.reverse.takeWhile (· == 0) =
      List.replicate (ds.reverse.takeWhile (· == 0)).length 0 := by
    rw [List.eq_replicate_iff]
    exact ⟨rfl, fun d hd => by simpa using List.all_eq_true.1 List.all_takeWhile d hd⟩
  have hsplit : ds = (ds.reverse.dropWhile (· == 0)).reverse ++
      List.replicate (ds.reverse.takeWhile (· == 0)).length 0 := by
    rw [← List.reverse_inj, List.reverse_append, List.reverse_replicate, ← hzeros,
      List.reverse_reverse, List.takeWhile_append_dropWhile]
  have hne : (ds.reverse.dropWhile (· == 0)).reverse ≠ [] := by
    intro hnil
    rw [hnil, List.nil_append] at hsplit
    exact h (by rw [hsplit, ofDigits_replicate])
  have hdrop : dropLastZeros ds = (ds.reverse.dropWhile (· == 0)).reverse := by
    unfold dropLastZeros
    split
    · next hnil => exact absurd hnil hne
    · rfl
  rw [hdrop]
  exact ⟨_, hsplit, hne⟩

theorem ofScaled_sound {n : ℕ} (hn : 0 < n) (place : ℤ) :
    (Digits.ofScaled n place).Sound ∧ (Digits.ofScaled n place).amount = n * 10 ^ place := by
  have hvalue := ofDigits_digitsOf n
  obtain ⟨k, hsplit, hne⟩ := @dropLastZeros_append (digitsOf n) (by omega)
  have hof : Digits.ofScaled n place =
      ⟨dropLastZeros (digitsOf n), place + ((digitsOf n).length - 1 : ℕ)⟩ := by
    rw [Digits.ofScaled, if_neg hn.ne']
  rw [hof]
  refine ⟨⟨hne, fun d hd => digital_digitsOf n d ?_⟩, ?_⟩
  · rw [hsplit]
    exact List.mem_append_left _ hd
  · have hlength : (digitsOf n).length = (dropLastZeros (digitsOf n)).length + k := by
      conv_lhs => rw [hsplit]
      simp
    have hpos := List.length_pos_iff.2 hne
    have hcast : (ofDigits (dropLastZeros (digitsOf n)) : ℚ) * 10 ^ k = n := by
      rw [hsplit, ofDigits_append, ofDigits_replicate, List.length_replicate, add_zero] at hvalue
      exact_mod_cast hvalue
    have hpower : (10 : ℚ) ^ (place + ((digitsOf n).length - 1 : ℕ) -
        (((dropLastZeros (digitsOf n)).length : ℤ) - 1)) = 10 ^ k * 10 ^ place := by
      rw [← zpow_natCast, ← zpow_add₀ (by norm_num)]
      congr 1
      omega
    rw [Digits.amount, hpower, ← mul_assoc, hcast]

/-- The power of ten at the end of a number, or nothing. -/
inductive Power : List Char → ℤ → Prop
  | none : Power [] 0
  | written (k : ℤ) : Power (powerText k) k

/-- The text of the number `n * 10 ^ k`. -/
inductive Numeral : List Char → ℕ → ℤ → Prop
  | whole {power : List Char} {ds : List ℕ} {k : ℤ} : Digital ds → ds ≠ [] → Power power k →
      Numeral (digitText ds ++ power) (ofDigits ds) k
  | pointed {power : List Char} {ds fs : List ℕ} {k : ℤ} : Digital ds → ds ≠ [] → Digital fs →
      fs ≠ [] → Power power k →
      Numeral (digitText ds ++ '.' :: (digitText fs ++ power)) (ofDigits (ds ++ fs)) (k - fs.length)

def powerDigits (k : ℤ) : List ℕ :=
  List.replicate (2 - (digitText (digitsOf k.natAbs)).length) 0 ++ digitsOf k.natAbs

theorem powerText_eq (k : ℤ) :
    powerText k = 'e' :: (if k < 0 then '-' else '+') :: digitText (powerDigits k) := by
  rw [powerText, powerDigits, digitText_append, zerosText_eq]
  rfl

theorem powerDigits_spec (k : ℤ) :
    Digital (powerDigits k) ∧ powerDigits k ≠ [] ∧ ofDigits (powerDigits k) = k.natAbs := by
  refine ⟨?_, ?_, ?_⟩
  · intro d hd
    rcases List.mem_append.1 hd with hd | hd
    · rw [List.eq_of_mem_replicate hd]
      norm_num
    · exact digital_digitsOf _ d hd
  · simp [powerDigits, digitsOf_ne_nil]
  · rw [powerDigits, ofDigits_append, ofDigits_replicate, ofDigits_digitsOf, zero_mul, zero_add]

theorem Power.power? {power : List Char} {k : ℤ} (h : Power power k) : power? power = some k := by
  cases h with
  | none => rfl
  | written =>
    obtain ⟨hdigital, hne, hvalue⟩ := powerDigits_spec k
    have hdigits := digitValues?_digitText hdigital hne
    rw [powerText_eq, Decimal.power?, if_pos (.inl rfl)]
    by_cases hk : k < 0
    · simp [hk, takeSign, hdigits, hvalue, abs_of_neg hk]
    · simp [hk, takeSign, hdigits, hvalue, abs_of_nonneg (not_lt.1 hk)]

theorem Power.isText {power : List Char} {k : ℤ} (h : Power power k) :
    PowerText isPlainDigit power := by
  cases h with
  | none => exact .none
  | written =>
    obtain ⟨hdigital, hne, -⟩ := powerDigits_spec k
    rw [powerText_eq]
    refine .signed rfl (by split <;> rfl) ?_ (isPlainDigit_of_mem hdigital)
    simpa [digitText] using hne

theorem digitText_ne_nil (h : ds ≠ []) : digitText ds ≠ [] := by
  simpa [digitText] using h

theorem Numeral.isText {cs : List Char} {n : ℕ} {k : ℤ} (h : Numeral cs n k) :
    NumberText isPlainDigit cs := by
  cases h with
  | whole hds hne hpower =>
    exact .whole (digitText_ne_nil hne) (isPlainDigit_of_mem hds) hpower.isText
  | pointed hds hne hfs _ hpower =>
    exact .pointed (.inl (digitText_ne_nil hne)) (isPlainDigit_of_mem hds)
      (isPlainDigit_of_mem hfs) hpower.isText

theorem Numeral.starts {cs : List Char} {n : ℕ} {k : ℤ} (h : Numeral cs n k) :
    ∃ c rest, cs = c :: rest ∧ isPlainDigit c := by
  have hstart : ∀ {ds} (rest : List Char), Digital ds → ds ≠ [] →
      ∃ c rest', digitText ds ++ rest = c :: rest' ∧ isPlainDigit c := by
    intro ds rest hds hne
    cases ds with
    | nil => exact absurd rfl hne
    | cons d ds => exact ⟨_, _, rfl, (isPlainDigit_ofNat d (hds d (by simp))).1⟩
  cases h with
  | whole hds hne _ => exact hstart _ hds hne
  | pointed hds hne _ _ _ => exact hstart _ hds hne

theorem getLast?_append {cs rest : List Char}
    (h : ∃ c, rest.getLast? = some c ∧ isPlainDigit c) :
    ∃ c, (cs ++ rest).getLast? = some c ∧ isPlainDigit c := by
  obtain ⟨c, hlast, hc⟩ := h
  exact ⟨c, by rw [List.getLast?_append, hlast, Option.some_or], hc⟩

theorem Numeral.ends {cs : List Char} {n : ℕ} {k : ℤ} (h : Numeral cs n k) :
    ∃ c, cs.getLast? = some c ∧ isPlainDigit c := by
  have hdigits : ∀ {ds : List ℕ}, Digital ds → ds ≠ [] →
      ∃ c, (digitText ds).getLast? = some c ∧ isPlainDigit c := by
    intro ds hds hne
    have hlast := List.getLast?_eq_some_getLast (digitText_ne_nil hne)
    exact ⟨_, hlast, isPlainDigit_of_mem hds _ (List.getLast_mem _)⟩
  have hpower : ∀ {ds power k}, Digital ds → ds ≠ [] → Power power k →
      ∃ c, (digitText ds ++ power).getLast? = some c ∧ isPlainDigit c := by
    intro ds power k hds hne hpower
    cases hpower with
    | none =>
      rw [List.append_nil]
      exact hdigits hds hne
    | written =>
      obtain ⟨hdigital, hne, -⟩ := powerDigits_spec k
      rw [powerText_eq]
      exact getLast?_append (@getLast?_append ['e', _] _ (hdigits hdigital hne))
  cases h with
  | whole hds hne h => exact hpower hds hne h
  | pointed _ _ hfs hfne h => exact getLast?_append (@getLast?_append ['.'] _ (hpower hfs hfne h))

theorem Numeral.unsigned? {cs : List Char} {n : ℕ} {k : ℤ} (h : Numeral cs n k) :
    unsigned? false cs = some (ofScaled false n k) := by
  have hdecimal : ∀ {power k}, Power power k → PowerText isDecimal power :=
    fun h => h.isText.mono fun _ _ => isDecimal_of_isPlainDigit
  cases h with
  | whole hds hne hpower =>
    exact unsigned?_whole false (decimals_digitText hds) (hdecimal hpower) (side?_digitText hds)
      hne hpower.power?
  | pointed hds hne hfs hfne hpower =>
    exact unsigned?_pointed false (decimals_digitText hds) (decimals_digitText hfs)
      (hdecimal hpower) (side?_digitText hds) (side?_digitText hfs) (.inl hne) hpower.power?

theorem toLower_of_isPlainDigit {c : Char} (h : isPlainDigit c) : c.toLower = c := by
  obtain ⟨hlow, hhigh⟩ := toNat_of_isPlainDigit h
  rw [Char.toLower, dif_neg]
  simp only [UInt32.le_iff_toNat_le, ge_iff_le, not_and]
  intro hcapital
  have : (65 : ℕ) ≤ c.toNat := hcapital
  omega

theorem Numeral.read? {cs : List Char} {n : ℕ} {k : ℤ} (h : Numeral cs n k) :
    read? (String.ofList cs) = some (ofScaled false n k) := by
  have htext : NumberText isDecimal cs := h.isText.mono fun _ _ => isDecimal_of_isPlainDigit
  obtain ⟨c, rest, rfl, hc⟩ := h.starts
  have hword : word? false (lowerAscii (c :: rest)) = none := by
    have hhead : (lowerAscii (c :: rest)).toList.head? = some c := by
      simp [lowerAscii, toLower_of_isPlainDigit hc]
    have hother : ∀ word ∈ ["inf", "infinity", "nan"], lowerAscii (c :: rest) ≠ word := by
      intro word hword heq
      have hletters : ∀ word ∈ ["inf", "infinity", "nan"],
          word.toList.head?.all (!isPlainDigit ·) := by decide
      have hletter := hletters word hword
      rw [← heq, hhead] at hletter
      simp [hc] at hletter
    simp [word?, hother]
  have hsign : takeSign (c :: rest) = (false, c :: rest) :=
    takeSign_eq (isSign_of_isDecimal (isDecimal_of_isPlainDigit hc))
  unfold Decimal.read?
  rw [String.toList_ofList, trimMargins_eq htext.isMargin, hsign]
  dsimp only
  rw [hword, h.unsigned?]

theorem digital_replicate (n : ℕ) : Digital (List.replicate n 0) := by
  intro d hd
  rw [List.eq_of_mem_replicate hd]
  norm_num

theorem Digital.append {fs : List ℕ} (hds : Digital ds) (hfs : Digital fs) : Digital (ds ++ fs) :=
  List.forall_mem_append.2 ⟨hds, hfs⟩

theorem scientificText_numeral {d : Digits} (hd : d.Sound) :
    ∃ n k, Numeral (scientificText d) n k ∧ (n : ℚ) * 10 ^ k = d.amount := by
  rcases d with ⟨ds, exponent⟩
  obtain ⟨hne, hdigital⟩ := hd
  cases ds with
  | nil => exact absurd rfl hne
  | cons first ds =>
    obtain ⟨hfirst, hrest⟩ := List.forall_mem_cons.1 hdigital
    cases ds with
    | nil =>
      have htext :
          scientificText ⟨[first], exponent⟩ = digitText [first] ++ powerText exponent := rfl
      rw [htext]
      exact ⟨_, _, .whole hdigital (by simp) (.written exponent), by simp [Digits.amount]⟩
    | cons second rest =>
      have htext : scientificText ⟨first :: second :: rest, exponent⟩ =
          digitText [first] ++ '.' :: (digitText (second :: rest) ++ powerText exponent) := rfl
      rw [htext]
      have hlead : Digital [first] := by simpa [Digital] using hfirst
      refine ⟨_, _, .pointed hlead (by simp) hrest (by simp) (.written exponent), ?_⟩
      simp [Digits.amount]

theorem fraction_numeral {exponent : ℤ} (hne : ds ≠ []) (hds : Digital ds) (h : exponent < 0) :
    ∃ n k, Numeral ('0' :: '.' :: zerosText ((-exponent).toNat - 1) ++ digitText ds) n k ∧
      (n : ℚ) * 10 ^ k = Digits.amount ⟨ds, exponent⟩ := by
  have hpos : 0 < ds.length := List.length_pos_iff.2 hne
  have htext : '0' :: '.' :: zerosText ((-exponent).toNat - 1) ++ digitText ds =
      digitText [0] ++
        '.' :: (digitText (List.replicate ((-exponent).toNat - 1) 0 ++ ds) ++ []) := by
    rw [digitText_append, zerosText_eq, List.append_nil]
    rfl
  have hzero : ofDigits [0] = 0 := rfl
  rw [htext]
  refine ⟨_, _, .pointed (digital_replicate 1) (by simp) ((digital_replicate _).append hds)
    (by simp [hne]) .none, ?_⟩
  rw [ofDigits_append, ofDigits_append, ofDigits_replicate, Digits.amount, hzero, zero_mul,
    zero_mul, zero_add, zero_add]
  congr 2
  simp only [List.length_append, List.length_replicate]
  omega

theorem split_numeral {exponent : ℤ} (hds : Digital ds) (h : 0 ≤ exponent)
    (hlong : exponent.toNat + 1 < ds.length) :
    ∃ n k, Numeral (digitText (ds.take (exponent.toNat + 1)) ++
        '.' :: digitText (ds.drop (exponent.toNat + 1))) n k ∧
      (n : ℚ) * 10 ^ k = Digits.amount ⟨ds, exponent⟩ := by
  have hne : ds ≠ [] := List.length_pos_iff.1 (by omega)
  rw [← List.append_nil (digitText (ds.drop _))]
  refine ⟨_, _, .pointed (fun d hd => hds d (List.mem_of_mem_take hd)) (by simp [hne])
    (fun d hd => hds d (List.mem_of_mem_drop hd)) (by simpa using hlong) .none, ?_⟩
  rw [List.take_append_drop, Digits.amount]
  congr 2
  simp only [List.length_drop]
  omega

theorem padded_numeral {exponent : ℤ} (hne : ds ≠ []) (hds : Digital ds)
    (hshort : ds.length ≤ exponent.toNat + 1) (h : 0 ≤ exponent) :
    ∃ n k, Numeral (digitText ds ++ zerosText (exponent.toNat + 1 - ds.length) ++ ['.', '0']) n k ∧
      (n : ℚ) * 10 ^ k = Digits.amount ⟨ds, exponent⟩ := by
  have hten : (10 : ℚ) ≠ 0 := by norm_num
  have htext : digitText ds ++ zerosText (exponent.toNat + 1 - ds.length) ++ ['.', '0'] =
      digitText (ds ++ List.replicate (exponent.toNat + 1 - ds.length) 0) ++
        '.' :: (digitText [0] ++ []) := by
    rw [digitText_append, zerosText_eq]
    rfl
  have hpower :
      (10 : ℚ) ^ (exponent - (ds.length - 1)) = 10 ^ (exponent.toNat + 1 - ds.length) := by
    rw [← zpow_natCast]
    congr 1
    omega
  have hzero : ofDigits [0] = 0 := rfl
  rw [htext]
  refine ⟨_, _, .pointed (hds.append (digital_replicate _)) (by simp [hne]) (digital_replicate 1)
    (by simp) .none, ?_⟩
  rw [ofDigits_append, ofDigits_append, ofDigits_replicate, Digits.amount, hpower]
  simp only [hzero, List.length_replicate, List.length_singleton, add_zero]
  push_cast
  rw [zpow_neg, zpow_one]
  field_simp

theorem positionalText_numeral {d : Digits} (hd : d.Sound) :
    ∃ n k, Numeral (positionalText true d) n k ∧ (n : ℚ) * 10 ^ k = d.amount := by
  rcases d with ⟨ds, exponent⟩
  obtain ⟨hne, hdigital⟩ := hd
  unfold positionalText
  dsimp only
  split
  · next h => exact fraction_numeral hne hdigital h
  · next h =>
    split
    · next hback =>
      have hlong : exponent.toNat + 1 < ds.length := by simpa using hback
      have hzeros : zerosText (exponent.toNat + 1 - ds.length) = [] := by
        rw [Nat.sub_eq_zero_of_le hlong.le]
        rfl
      rw [hzeros, List.append_nil]
      exact split_numeral hdigital (not_lt.1 h) hlong
    · next hback =>
      have hshort : ds.length ≤ exponent.toNat + 1 := by simpa using hback
      rw [List.take_of_length_le hshort, if_pos rfl]
      exact padded_numeral hne hdigital hshort (not_lt.1 h)

theorem exactText_numeral {d : Digits} (hd : d.Sound) :
    ∃ n k, Numeral (exactLayout.text d) n k ∧ (n : ℚ) * 10 ^ k = d.amount := by
  unfold Layout.text
  split
  · exact positionalText_numeral hd
  · exact scientificText_numeral hd

end

section

variable {x : Float} {m : ℕ} {e : ℤ}

theorem whole?_spec (hx : value x = .finite false m e) :
    (∃ n : ℕ, whole? x = some (n : ℤ) ∧ (n : ℚ) = m * 2 ^ e) ∨ whole? x = none ∧ 0 < m := by
  have hcast := zpow_eq_div 2 e
  unfold whole?
  rw [hx]
  dsimp only
  simp only [Bool.false_eq_true, if_false]
  split
  · next he =>
    refine .inl ⟨_, rfl, ?_⟩
    rw [hcast, Int.toNat_of_nonpos (by omega : -e ≤ 0)]
    push_cast [cast_twoTo]
    rw [pow_zero, div_one]
  · next he =>
    have hpos : 0 < twoTo (-e).toNat := Nat.pow_pos (by norm_num)
    split
    · next hdvd =>
      refine .inl ⟨_, rfl, ?_⟩
      rw [hcast, Int.toNat_of_nonpos (by omega : e ≤ 0), pow_zero, mul_one_div, ← cast_twoTo]
      exact Nat.cast_div (Nat.dvd_of_mod_eq_zero hdvd) (by exact_mod_cast hpos.ne')
    · next hdvd =>
      refine .inr ⟨rfl, Nat.pos_of_ne_zero ?_⟩
      rintro rfl
      exact hdvd (Nat.zero_mod _)

theorem numeral_reads (hx : value x = .finite false m e) :
    ∃ cs n k, numeral x = String.ofList cs ∧ Numeral cs n k ∧ ofScaled false n k = x := by
  obtain ⟨hcanonical, hbits⟩ := canonical_of_value hx
  unfold numeral
  rcases whole?_spec hx with ⟨n, hwhole, hn⟩ | ⟨hwhole, hm⟩
  · rw [hwhole]
    refine ⟨digitText (digitsOf n) ++ [], _, _, ?_,
      .whole (digital_digitsOf n) (digitsOf_ne_nil n) .none, ?_⟩
    · rw [List.append_nil, digitText_digitsOf]
      rfl
    · rw [ofDigits_digitsOf]
      rcases Nat.eq_zero_or_pos m with rfl | hm
      · obtain rfl : n = 0 := by simpa using hn
        obtain rfl : e = -1074 := hcanonical.normal.resolve_right (by norm_num)
        rw [hbits]
        rfl
      · apply ofScaled_of_contains hx hm
        have hmid : (n : ℚ) * spacing 0 e = 4 * m := by
          rw [hn, spacing, zpow_sub₀ (by norm_num)]
          field_simp
          norm_num
        rw [hmid]
        exact contains_mid hm
  · obtain ⟨n, place, hn, hshortest, hcontains⟩ := shortest_spec hm hcanonical.significand e
    obtain ⟨hsound, hamount⟩ := ofScaled_sound hn place
    obtain ⟨n', k, hnumeral, hsame⟩ := exactText_numeral hsound
    rw [hwhole]
    refine ⟨_, n', k, ?_, hnumeral, ?_⟩
    · simp [exact, textWith, hx, hm.ne', hshortest]
    · apply ofScaled_of_contains hx hm
      rw [spacing, ← mul_div_assoc, hsame, hamount, mul_div_assoc]
      exact hcontains

/-- A number written out as it stands in a formula is read as itself. -/
theorem read?_numeral (hx : value x = .finite false m e) : read? (numeral x) = some x := by
  obtain ⟨cs, n, k, htext, hnumeral, hread⟩ := numeral_reads hx
  rw [htext, hnumeral.read?, hread]

theorem unsigned_of_ofScaled {negative : Bool} {n : Nat} {k : Int}
    (h : value (ofScaled false n k) = .finite negative m e) : negative = false := by
  unfold ofScaled at h
  dsimp only at h
  split at h
  · exact unsigned_of_nearest h
  · split at h
    · exact unsigned_of_nearest h
    · split at h <;> exact unsigned_of_nearest h

theorem trimMargins_cons {c : Char} (hc : isMargin c = false) (cs : List Char) :
    ∃ ds, trimMargins (c :: cs) = c :: ds := by
  rw [trimMargins, List.dropWhile_cons_of_neg (by simp [hc]), List.reverse_cons,
    List.dropWhile_append]
  split
  · exact ⟨[], by simp [hc]⟩
  · exact ⟨_, by rw [List.reverse_append]; rfl⟩

theorem unsigned_of_read? {negative : Bool} {s : String} {c : Char} {cs : List Char}
    (hs : s.toList = c :: cs) (hblank : isBlank c = false) (hsign : isSign c = false)
    (hread : read? s = some x) (h : value x = .finite negative m e) : negative = false := by
  have hnan : value (0.0 / 0.0) = .undefined := by decide +kernel
  obtain ⟨ds, htrim⟩ := trimMargins_cons (c := c) (by simp [isMargin, hblank]) cs
  unfold read? at hread
  rw [hs, htrim, takeSign_eq hsign] at hread
  dsimp only at hread
  split at hread
  · next hword =>
    cases hread
    unfold word? at hword
    split at hword
    · rw [← Option.some.inj hword] at h
      exact unsigned_of_nearest h
    · split at hword
      · rw [← Option.some.inj hword, hnan] at h
        cases h
      · cases hword
  · unfold unsigned? at hread
    dsimp only at hread
    split at hread
    · split at hread
      · cases hread
      · cases hread
        exact unsigned_of_ofScaled h
    · cases hread

end

end GridCalc.Decimal
