import GridCalc.Proofs.Rounding
import Mathlib.Data.Nat.Cast.Field

/-!
# The fewest digits that read back

Between one multiple of a power of ten and the next there is room for a whole basin only if the
power is large, so seventeen digits are always enough to read back. Whatever digits the search
finds, their number lies in the basin of the double, and so it is read as the double again.
-/

set_option autoImplicit false

namespace GridCalc.Decimal
open GridCalc.Text

section

variable {m n : ℕ} {e place : ℤ}

theorem scales_pos (place e : ℤ) : 0 < (scales place e).1 ∧ 0 < (scales place e).2 := by
  have htwo : ∀ k, 0 < twoTo k := fun k => Nat.pow_pos (by norm_num)
  have hten : ∀ k, 0 < tenTo k := fun k => Nat.pow_pos (by norm_num)
  exact ⟨Nat.mul_pos (hten _) (htwo _), Nat.mul_pos (htwo _) (hten _)⟩

theorem scales_ratio (place e : ℤ) :
    ((scales place e).1 : ℚ) / (scales place e).2 = 10 ^ place / 2 ^ e := by
  have hten : (10 : ℚ) ^ (-place).toNat ≠ 0 := by positivity
  have htwo : (2 : ℚ) ^ e.toNat ≠ 0 := by positivity
  rw [zpow_eq_div 10 place, zpow_eq_div 2 e]
  simp only [scales]
  push_cast [cast_twoTo, cast_tenTo]
  field_simp

theorem has_iff {r : Basin} {a b : ℕ} (hb : 0 < b) (n : ℕ) :
    r.has a b n ↔ r.Contains (n * (a / b)) := by
  have hpos : (0 : ℚ) < b := by exact_mod_cast hb
  have hle : ∀ k, (k * b ≤ n * a ↔ (k : ℚ) ≤ n * (a / b)) ∧
      (n * a ≤ k * b ↔ n * (a / b) ≤ (k : ℚ)) := by
    intro k
    rw [← mul_div_assoc, le_div_iff₀ hpos, div_le_iff₀ hpos]
    exact ⟨by exact_mod_cast Iff.rfl, by exact_mod_cast Iff.rfl⟩
  have hlt : ∀ k, (k * b < n * a ↔ (k : ℚ) < n * (a / b)) ∧
      (n * a < k * b ↔ n * (a / b) < (k : ℚ)) := by
    intro k
    rw [← mul_div_assoc, lt_div_iff₀ hpos, div_lt_iff₀ hpos]
    exact ⟨by exact_mod_cast Iff.rfl, by exact_mod_cast Iff.rfl⟩
  unfold Basin.has
  split
  · next h =>
    simp only [Bool.and_eq_true, decide_eq_true_iff, (hle _).1, (hle _).2]
    exact ⟨fun ⟨h1, h2⟩ => ⟨h1, h2, by simp [h]⟩, fun ⟨h1, h2, _⟩ => ⟨h1, h2⟩⟩
  · next h =>
    simp only [Bool.and_eq_true, decide_eq_true_iff, (hlt _).1, (hlt _).2]
    exact ⟨fun ⟨h1, h2⟩ => ⟨h1.le, h2.le, fun _ => ⟨h1, h2⟩⟩,
      fun h' => h'.strict (by simpa using h)⟩

theorem roundDiv_cases (num den : ℕ) :
    roundDiv num den = num / den ∨ roundDiv num den = num / den + 1 := by
  unfold roundDiv
  dsimp only
  split
  · exact .inr rfl
  · exact .inl rfl

def spacing (place e : ℤ) : ℚ := 10 ^ place / 2 ^ (e - 2)

theorem contains_of_nearestOnGrid? (h : nearestOnGrid? m e place = some n) :
    (basin m e).Contains (n * spacing place e) := by
  have hhas : ∀ n, (basin m e).has (scales place (e - 2)).1 (scales place (e - 2)).2 n ↔
      (basin m e).Contains (n * spacing place e) := by
    intro n
    rw [has_iff (scales_pos place (e - 2)).2, scales_ratio, spacing]
  unfold nearestOnGrid? at h
  dsimp only at h
  rw [← hhas]
  split at h
  · next h1 h2 =>
    cases h
    rcases roundDiv_cases ((basin m e).mid * (scales place (e - 2)).2)
      (scales place (e - 2)).1 with hr | hr
    · rwa [hr]
    · rwa [hr]
  · next h1 h2 =>
    cases h
    exact h1
  · next h1 h2 =>
    cases h
    exact h2
  · cases h

/-- If the steps are small, one of the two beside the double reads back. -/
theorem contains_beside {g : ℚ} (hm : 0 < m) (hmax : m < 2 ^ 53) (hg : g ≤ 4 * m / 10 ^ 16)
    (hbelow : (n : ℚ) * g ≤ 4 * m) (habove : 4 * (m : ℚ) < (n + 1) * g) :
    (basin m e).Contains (n * g) ∨ (basin m e).Contains ((n + 1 : ℕ) * g) := by
  have hmq : (m : ℚ) < 2 ^ 53 := by exact_mod_cast hmax
  have hhigh := cast_high m e
  have hlow := cast_low hm e
  norm_num at hg
  push_cast
  -- The one below may be too far off, or the basin half as wide on that side; then the one above,
  -- a small step from it, is close enough.
  by_cases hnear : 4 * (m : ℚ) - n * g < 2 ∧ ¬ (m = 2 ^ 52 ∧ -1074 < e)
  · obtain ⟨hnear, hregular⟩ := hnear
    rw [if_neg hregular] at hlow
    exact .inl ⟨by linarith, by linarith, fun _ => ⟨by linarith, by linarith⟩⟩
  · have hstep : ((n : ℚ) + 1) * g - 4 * m < 2 := by
      by_cases hnarrow : m = 2 ^ 52 ∧ -1074 < e
      · rw [hnarrow.1] at hg hbelow ⊢
        norm_num at hg hbelow ⊢
        linarith
      · have : 2 ≤ 4 * (m : ℚ) - n * g := not_lt.1 fun h => hnear ⟨h, hnarrow⟩
        linarith
    have hlow' : ((basin m e).low : ℚ) < 4 * m := by
      rw [hlow]
      split <;> linarith
    exact .inr ⟨by linarith, by linarith, fun _ => ⟨by linarith, by linarith⟩⟩

theorem nearestOnGrid?_isSome (hm : 0 < m) (hmax : m < 2 ^ 53)
    (hg : spacing place e ≤ 4 * m / 10 ^ 16) :
    (nearestOnGrid? m e place).isSome := by
  -- If multiples of the power of ten lie close, one of the two beside the number reads back.
  obtain ⟨ha, hb⟩ := scales_pos place (e - 2)
  have hhas := has_iff (r := basin m e) (a := (scales place (e - 2)).1) hb
  have hspacing := scales_ratio place (e - 2)
  unfold nearestOnGrid?
  dsimp only
  generalize (scales place (e - 2)).1 = a at *
  generalize (scales place (e - 2)).2 = b at *
  rw [← spacing] at hspacing
  rw [hspacing] at hhas
  generalize spacing place e = g at *
  have hmid : (basin m e).mid = 4 * m := rfl
  rw [hmid]
  obtain ⟨n, hn⟩ : ∃ n, n = 4 * m * b / a := ⟨_, rfl⟩
  rw [← hn]
  have hpos : (0 : ℚ) < b := by exact_mod_cast hb
  have hbelow : (n : ℚ) * g ≤ 4 * m := by
    have h : n * a ≤ 4 * m * b := hn ▸ Nat.div_mul_le_self _ _
    rw [← hspacing, ← mul_div_assoc, div_le_iff₀ hpos]
    exact_mod_cast h
  have habove : 4 * (m : ℚ) < (n + 1) * g := by
    have h : 4 * m * b < a * (n + 1) := hn ▸ Nat.lt_mul_div_succ (4 * m * b) ha
    rw [← hspacing, ← mul_div_assoc, lt_div_iff₀ hpos, mul_comm _ (a : ℚ)]
    exact_mod_cast h
  rcases contains_beside hm hmax hg hbelow habove with h | h
  · rw [(hhas n).2 h]
    cases (basin m e).has a b (n + 1) <;> rfl
  · rw [(hhas (n + 1)).2 h]
    cases (basin m e).has a b n <;> rfl

theorem length_digitsOf (n : ℕ) : (digitsOf n).length = (Nat.toDigits 10 n).length :=
  List.length_map _

theorem lt_pow_length_digitsOf (n : ℕ) : n < 10 ^ (digitsOf n).length := by
  rw [length_digitsOf, ← Nat.length_toDigits_le_iff (by norm_num) Nat.length_toDigits_pos]

theorem pow_length_digitsOf_le (hn : 0 < n) : 10 ^ ((digitsOf n).length - 1) ≤ n := by
  have hpos : 0 < (digitsOf n).length := by
    rw [length_digitsOf]
    exact Nat.length_toDigits_pos
  by_contra hlt
  rw [not_le] at hlt
  rcases Nat.eq_zero_or_pos ((digitsOf n).length - 1) with hzero | hlong
  · rw [hzero] at hlt
    omega
  · rw [length_digitsOf] at hlt hpos hlong
    have := (Nat.length_toDigits_le_iff (by norm_num) hlong).2 hlt
    omega

theorem leadingPlace_le {num den : ℕ} (hnum : 0 < num) (hden : 0 < den) :
    (10 : ℚ) ^ leadingPlace num den ≤ num / den := by
  have hpos : (0 : ℚ) < den := by exact_mod_cast hden
  unfold leadingPlace
  split
  · next h =>
    have hle := pow_length_digitsOf_le (Nat.div_pos h hden)
    have hlen : 0 < (digitsOf (num / den)).length := by
      rw [length_digitsOf]
      exact Nat.length_toDigits_pos
    have hcast : ((digitsOf (num / den)).length : ℤ) - 1 =
        ((digitsOf (num / den)).length - 1 : ℕ) := by omega
    rw [hcast, zpow_natCast, le_div_iff₀ hpos]
    have := (Nat.le_div_iff_mul_le hden).1 hle
    exact_mod_cast this
  · next h =>
    have hlt := lt_pow_length_digitsOf ((den - 1) / num)
    rw [Nat.div_lt_iff_lt_mul hnum] at hlt
    rw [zpow_neg, zpow_natCast, inv_le_comm₀ (by positivity) (by positivity), inv_div,
      div_le_iff₀ (by positivity)]
    have : den ≤ 10 ^ (digitsOf ((den - 1) / num)).length * num := by omega
    exact_mod_cast this

theorem decimalExponent_le (hm : 0 < m) (e : ℤ) : (10 : ℚ) ^ decimalExponent m e ≤ m * 2 ^ e := by
  have htwo : ∀ k, 0 < twoTo k := fun k => Nat.pow_pos (by norm_num)
  refine (leadingPlace_le (Nat.mul_pos hm (htwo _)) (htwo _)).trans_eq ?_
  rw [zpow_eq_div 2 e]
  push_cast [cast_twoTo]
  rw [mul_div_assoc]

theorem spacing_last (hm : 0 < m) (e : ℤ) :
    spacing (decimalExponent m e - 16) e ≤ 4 * m / 10 ^ 16 := by
  have htop := decimalExponent_le hm e
  have hpos : (0 : ℚ) < 2 ^ e := by positivity
  rw [spacing, zpow_sub₀ (by norm_num), zpow_sub₀ (by norm_num),
    div_le_iff₀ (by positivity)]
  norm_num
  linarith

theorem pos_of_contains {g : ℚ} (hm : 0 < m) (h : (basin m e).Contains (n * g)) : 0 < n := by
  rcases Nat.eq_zero_or_pos n with rfl | hn
  · have hlow := (le_cast_low hm e).trans h.low
    have hm' : (1 : ℚ) ≤ m := by exact_mod_cast hm
    push_cast at hlow
    linarith
  · exact hn

/-- Seventeen digits are always enough to read back. -/
theorem shortest_spec (hm : 0 < m) (hmax : m < 2 ^ 53) (e : ℤ) :
    ∃ n place, 0 < n ∧ shortest m e = .ofScaled n place ∧
      (basin m e).Contains (n * spacing place e) := by
  obtain ⟨last, hlast⟩ := Option.isSome_iff_exists.1
    (nearestOnGrid?_isSome hm hmax (spacing_last hm e))
  have hfound : ((List.range 17).findSome? fun (k : Nat) =>
      (nearestOnGrid? m e (decimalExponent m e - k)).map
        (Digits.ofScaled · (decimalExponent m e - k))).isSome := by
    rw [List.findSome?_isSome_iff]
    exact ⟨16, by simp, by simp [hlast]⟩
  obtain ⟨d, hd⟩ := Option.isSome_iff_exists.1 hfound
  obtain ⟨k, -, hk⟩ := List.exists_of_findSome?_eq_some hd
  obtain ⟨n, hn, rfl⟩ := Option.map_eq_some_iff.1 hk
  have hcontains := contains_of_nearestOnGrid? hn
  refine ⟨n, _, pos_of_contains hm hcontains, ?_, hcontains⟩
  simp only [shortest, hd]
  rfl

theorem mul_spacing_bounds (hm : 0 < m) (h : Canonical m e) (k : ℤ)
    (hcontains : (basin m e).Contains (n * spacing k e)) :
    (2 : ℚ) ^ (-1075 : ℤ) ≤ n * 10 ^ k ∧ (n * 10 ^ k : ℚ) ≤ 2 ^ (1024 : ℤ) := by
  have hpos : (0 : ℚ) < 2 ^ (e - 2) := by positivity
  have hlow := (le_cast_low hm e).trans hcontains.low
  have hhigh := hcontains.high
  rw [cast_high] at hhigh
  rw [spacing, ← mul_div_assoc, le_div_iff₀ hpos] at hlow
  rw [spacing, ← mul_div_assoc, div_le_iff₀ hpos] at hhigh
  have hm1 : (1 : ℚ) ≤ m := by exact_mod_cast hm
  have hm2 : (m + 1 : ℚ) ≤ 2 ^ 53 := by exact_mod_cast h.significand
  have hleast : (2 : ℚ) ^ (-1076 : ℤ) ≤ 2 ^ (e - 2) :=
    zpow_le_zpow_right₀ (by norm_num) (by have := h.least; omega)
  have hgreatest : (2 : ℚ) ^ (e - 2) ≤ 2 ^ (969 : ℤ) :=
    zpow_le_zpow_right₀ (by norm_num) (by have := h.greatest; omega)
  constructor
  · refine le_trans ?_ hlow
    rw [show (-1075 : ℤ) = 1 + -1076 by norm_num, zpow_add₀ (by norm_num)]
    exact mul_le_mul (by norm_num; linarith) hleast (by positivity) (by linarith)
  · refine hhigh.trans ?_
    rw [show (1024 : ℤ) = 55 + 969 by norm_num, zpow_add₀ (by norm_num)]
    exact mul_le_mul (by norm_num at hm2 ⊢; linarith) hgreatest (by positivity) (by positivity)

theorem two_lt_ten (j k : ℕ) (h : k < 3 * j) : (2 : ℚ) ^ (k : ℤ) < 10 ^ (j : ℤ) := by
  rw [zpow_natCast, zpow_natCast]
  calc (2 : ℚ) ^ k < 2 ^ (3 * j) := pow_lt_pow_right₀ (by norm_num) h
    _ = (2 ^ 3) ^ j := pow_mul 2 3 j
    _ ≤ 10 ^ j := pow_le_pow_left₀ (by norm_num) (by norm_num) j

theorem top_bounds {k : ℤ} (hn : 0 < n) (hlow : (2 : ℚ) ^ (-1075 : ℤ) ≤ n * 10 ^ k)
    (hhigh : (n * 10 ^ k : ℚ) ≤ 2 ^ (1024 : ℤ)) :
    -400 ≤ k + (Nat.toDigits 10 n).length ∧ k + (Nat.toDigits 10 n).length ≤ 400 := by
  have hlen : 0 < (Nat.toDigits 10 n).length := Nat.length_toDigits_pos
  constructor
  · by_contra hlast
    have hlt : (n : ℚ) < 10 ^ ((Nat.toDigits 10 n).length : ℤ) := by
      rw [zpow_natCast, ← length_digitsOf]
      exact_mod_cast lt_pow_length_digitsOf n
    have hpower : (n : ℚ) * 10 ^ k < 10 ^ (-401 : ℤ) := by
      refine lt_of_lt_of_le (mul_lt_mul_of_pos_right hlt (by positivity)) ?_
      rw [← zpow_add₀ (by norm_num)]
      exact zpow_le_zpow_right₀ (by norm_num) (by omega)
    have hfar : (10 : ℚ) ^ (-401 : ℤ) < 2 ^ (-1075 : ℤ) := by
      rw [zpow_neg, zpow_neg, inv_lt_inv₀ (by positivity) (by positivity)]
      exact two_lt_ten 401 1075 (by norm_num)
    exact absurd (hlow.trans_lt hpower) (not_lt.2 hfar.le)
  · by_contra hfirst
    have hle : (10 : ℚ) ^ ((Nat.toDigits 10 n).length - 1 : ℤ) ≤ n := by
      rw [show ((Nat.toDigits 10 n).length - 1 : ℤ) = ((Nat.toDigits 10 n).length - 1 : ℕ) by omega,
        zpow_natCast, ← length_digitsOf]
      exact_mod_cast pow_length_digitsOf_le hn
    have hpower : (10 : ℚ) ^ (400 : ℤ) ≤ n * 10 ^ k := by
      refine le_trans ?_ (mul_le_mul_of_nonneg_right hle (by positivity))
      rw [← zpow_add₀ (by norm_num)]
      exact zpow_le_zpow_right₀ (by norm_num) (by omega)
    have hfar : (2 : ℚ) ^ (1024 : ℤ) < 10 ^ (400 : ℤ) := two_lt_ten 400 1024 (by norm_num)
    exact absurd (hpower.trans hhigh) (not_le.2 hfar)

/-- Whatever lies in the basin of a positive double is read as it. -/
theorem ofScaled_of_contains {x : Float} (hx : value x = .finite false m e) (hm : 0 < m)
    {k : ℤ} (h : (basin m e).Contains (n * spacing k e)) : ofScaled false n k = x := by
  have hn := pos_of_contains hm h
  obtain ⟨hlow, hhigh⟩ := mul_spacing_bounds hm (canonical_of_value hx).1 k h
  obtain ⟨hsmall, hbig⟩ := top_bounds hn hlow hhigh
  unfold ofScaled
  dsimp only
  rw [if_neg (by omega), if_neg (by omega)]
  rw [spacing, zpow_eq_div 10 k] at h
  split
  · next hk =>
    apply nearest_of_contains hx hm (Nat.mul_pos hn (Nat.pow_pos (by norm_num))) one_pos
    rw [Int.toNat_of_nonpos (by omega : -k ≤ 0), pow_zero, div_one, ← mul_div_assoc] at h
    push_cast [cast_tenTo]
    rwa [div_one]
  · next hk =>
    apply nearest_of_contains hx hm hn (Nat.pow_pos (by norm_num))
    rw [Int.toNat_of_nonpos (by omega : k ≤ 0), pow_zero, ← mul_div_assoc, mul_one_div] at h
    push_cast [cast_tenTo]
    exact h

theorem contains_mid (hm : 0 < m) : (basin m e).Contains (4 * m) := by
  have hlow : ((basin m e).low : ℚ) < 4 * m := by
    rw [cast_low hm]
    split <;> linarith
  have hhigh := cast_high m e
  exact ⟨hlow.le, by linarith, fun _ => ⟨hlow, by linarith⟩⟩

end

end GridCalc.Decimal
