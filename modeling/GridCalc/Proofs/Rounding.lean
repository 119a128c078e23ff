import GridCalc.Decimal.Reading
import GridCalc.Decimal.Shortest
import Mathlib

/-!
# Quotients that round to a double

A finite double is its bits and nothing else, and they are its significand on top of its exponent.
Every quotient in the basin of a positive double rounds to it: its last binary place is that of the
double, or the one below if the double is a power of two and the quotient is less.
-/

set_option autoImplicit false

namespace GridCalc.Decimal
open Float.Model (Format UnpackedFloat)

theorem toBits_ofBits {n : ℕ} (h : n < 2047 * 2 ^ 52) :
    (Float.ofBits (UInt64.ofNat n)).toBits.toNat = n := by
  have hexponent :
      @UnpackedFloat.unpackExponent Format.binary64 (UInt64.ofNat n).toBitVec ≠ -1#11 := by
    intro hs
    have htop := congrArg BitVec.toNat hs
    rw [UnpackedFloat.unpackExponent_def, BitVec.extractLsb'_toNat,
      Nat.shiftRight_eq_div_pow] at htop
    simp at htop
    omega
  have hnumber : @UnpackedFloat.isNaNBits Format.binary64 (UInt64.ofNat n).toBitVec = false :=
    decide_eq_false fun hs => hexponent hs.1
  show (UInt64.ofBitVec (UnpackedFloat.pack Format.binary64
    (UnpackedFloat.unpack Format.binary64 (UInt64.ofNat n).toBitVec))).toNat = n
  rw [UnpackedFloat.pack_unpack, hnumber]
  simp
  omega

/-- The parts of a finite double: all places of the significand are in use, or the exponent is
the least. -/
structure Canonical (m : ℕ) (e : ℤ) : Prop where
  significand : m < 2 ^ 53
  least : -1074 ≤ e
  greatest : e ≤ 971
  normal : e = -1074 ∨ 2 ^ 52 ≤ m

theorem valueOfBits_unsigned {bits m : ℕ} {e : ℤ} (hbits : bits < 2 ^ 64)
    (h : valueOfBits bits = .finite false m e) :
    Canonical m e ∧ bits = (e + 1074).toNat * 2 ^ 52 + m := by
  have h63 : twoTo 63 = 2 ^ 63 := rfl
  have h52 : twoTo 52 = 2 ^ 52 := rfl
  have h11 : twoTo 11 = 2048 := rfl
  simp only [valueOfBits, h63, h52, h11] at h
  split at h
  · split at h <;> cases h
  · split at h
    · simp only [Value.finite.injEq, beq_eq_false_iff_ne] at h
      obtain ⟨hsign, rfl, rfl⟩ := h
      exact ⟨⟨by omega, by omega, by omega, .inl rfl⟩, by omega⟩
    · simp only [Value.finite.injEq, beq_eq_false_iff_ne] at h
      obtain ⟨hsign, rfl, rfl⟩ := h
      exact ⟨⟨by omega, by omega, by omega, .inr (by omega)⟩, by omega⟩

theorem canonical_of_value {x : Float} {m : ℕ} {e : ℤ} (h : value x = .finite false m e) :
    Canonical m e ∧ x = Float.ofBits (UInt64.ofNat ((e + 1074).toNat * 2 ^ 52 + m)) := by
  obtain ⟨hcanonical, hbits⟩ := valueOfBits_unsigned x.toBits.toNat_lt h
  refine ⟨hcanonical, ?_⟩
  rw [← hbits, UInt64.ofNat_toNat, Float.ofBits_toBits]

structure Rounds (w : ℚ) (n : ℕ) : Prop where
  low : 2 * (n : ℚ) - 1 ≤ 2 * w
  high : 2 * w ≤ 2 * n + 1
  odd : n % 2 = 1 → 2 * (n : ℚ) - 1 < 2 * w ∧ 2 * w < 2 * n + 1

theorem roundDiv_eq {num den n : ℕ} (hden : 0 < den) (h : Rounds (num / den) n) :
    roundDiv num den = n := by
  have hpos : (0 : ℚ) < den := by exact_mod_cast hden
  have hdiv : (num : ℚ) = den * (num / den : ℕ) + (num % den : ℕ) := by
    exact_mod_cast (Nat.div_add_mod num den).symm
  have hmod : ((num % den : ℕ) : ℚ) < den := by exact_mod_cast Nat.mod_lt num hden
  unfold roundDiv
  generalize num / den = q at *
  generalize num % den = r at *
  obtain ⟨f, hf⟩ : ∃ f : ℚ, f = r / den := ⟨_, rfl⟩
  have hr : (r : ℚ) = f * den := by rw [hf, div_mul_cancel₀ _ hpos.ne']
  have hw : (num : ℚ) / den = q + f := by
    rw [hdiv, hr]
    field_simp
  have hf0 : 0 ≤ f := by
    rw [hf]
    positivity
  have hf1 : f < 1 := by rwa [hf, div_lt_one hpos]
  have hpast : den < 2 * r ↔ 1 < 2 * f := by
    rw [← Nat.cast_lt (α := ℚ)]
    push_cast
    rw [hr]
    constructor <;> intro h <;> nlinarith
  have hhalf : 2 * r = den ↔ 2 * f = 1 := by
    rw [← Nat.cast_inj (R := ℚ)]
    push_cast
    rw [hr]
    constructor <;> intro h <;> nlinarith
  obtain ⟨hlow, hhigh, hodd⟩ := h
  rw [hw] at hlow hhigh hodd
  have hn : n = q ∨ n = q + 1 := by
    have hbelow : (2 * n : ℚ) < 2 * q + 3 := by linarith
    have habove : (2 * q : ℚ) ≤ 2 * n + 1 := by linarith
    norm_cast at hbelow habove
    omega
  dsimp only
  rcases hn with rfl | rfl
  · rw [if_neg]
    rintro (h | ⟨h, hq⟩)
    · linarith [hpast.1 h]
    · linarith [hhalf.1 h, (hodd hq).2]
  · push_cast at hlow hodd
    rw [if_pos]
    by_cases h : 1 < 2 * f
    · exact .inl (hpast.2 h)
    · have hf : 2 * f = 1 := by linarith
      refine .inr ⟨hhalf.2 hf, ?_⟩
      by_contra hq
      linarith [(hodd (by omega)).1]

theorem cast_twoTo (k : ℕ) : (twoTo k : ℚ) = 2 ^ k := by
  show ((2 ^ k : ℕ) : ℚ) = _
  push_cast
  rfl

theorem cast_tenTo (k : ℕ) : (tenTo k : ℚ) = 10 ^ k := by
  show ((10 ^ k : ℕ) : ℚ) = _
  push_cast
  rfl

theorem zpow_eq_div (b : ℚ) (k : ℤ) : b ^ k = b ^ k.toNat / b ^ (-k).toNat := by
  rcases le_total 0 k with h | h
  · rw [Int.toNat_of_nonpos (by omega : -k ≤ 0), pow_zero, div_one, ← zpow_natCast,
      Int.toNat_of_nonneg h]
  · rw [Int.toNat_of_nonpos h, pow_zero, ← zpow_natCast, Int.toNat_of_nonneg (by omega),
      zpow_neg, one_div, inv_inv]

section

variable {num den n : ℕ}

theorem quotient_bounds (hnum : 0 < num) (hden : 0 < den) :
    (2 : ℚ) ^ ((num.log2 : ℤ) - ((den.log2 + 1 : ℕ) : ℤ)) ≤ num / den ∧
      (num / den : ℚ) < 2 ^ (((num.log2 + 1 : ℕ) : ℤ) - (den.log2 : ℤ)) := by
  have hpos : (0 : ℚ) < den := by exact_mod_cast hden
  constructor
  · have h1 : (2 : ℚ) ^ num.log2 ≤ num := by exact_mod_cast Nat.log2_self_le hnum.ne'
    have h2 : (den : ℚ) ≤ 2 ^ (den.log2 + 1) := by exact_mod_cast Nat.lt_log2_self.le
    rw [zpow_sub₀ (by norm_num), zpow_natCast, zpow_natCast]
    exact div_le_div₀ (by positivity) h1 hpos h2
  · have h1 : (num : ℚ) < 2 ^ (num.log2 + 1) := by exact_mod_cast Nat.lt_log2_self
    have h2 : (2 : ℚ) ^ den.log2 ≤ den := by exact_mod_cast Nat.log2_self_le hden.ne'
    rw [zpow_sub₀ (by norm_num), zpow_natCast, zpow_natCast]
    exact div_lt_div₀ h1 h2 (by positivity) (by positivity)

theorem lastPlace_spec (hnum : 0 < num) (hden : 0 < den) :
    -1074 ≤ lastPlace num den ∧ (num / den : ℚ) < 2 ^ (lastPlace num den + 53) ∧
      (lastPlace num den = -1074 ∨ (2 : ℚ) ^ (lastPlace num den + 52) ≤ num / den) := by
  have hpos : (0 : ℚ) < den := by exact_mod_cast hden
  obtain ⟨guess, hguess⟩ : ∃ guess : ℤ, guess = (num.log2 : ℤ) - den.log2 - 53 := ⟨_, rfl⟩
  obtain ⟨hlow, hhigh⟩ := quotient_bounds hnum hden
  rw [show (num.log2 : ℤ) - ((den.log2 + 1 : ℕ) : ℤ) = guess + 52 by omega] at hlow
  rw [show ((num.log2 + 1 : ℕ) : ℤ) - (den.log2 : ℤ) = guess + 54 by omega] at hhigh
  have hreached : (if 0 ≤ guess then decide (twoTo 53 * den * twoTo guess.toNat ≤ num)
      else decide (twoTo 53 * den ≤ num * twoTo (-guess).toNat)) = true ↔
      (2 : ℚ) ^ (guess + 53) ≤ num / den := by
    rw [le_div_iff₀ hpos, zpow_add₀ (by norm_num), zpow_eq_div 2 guess]
    split
    · next h =>
      rw [decide_eq_true_iff, ← Nat.cast_le (α := ℚ),
        Int.toNat_of_nonpos (by omega : -guess ≤ 0)]
      push_cast [cast_twoTo]
      norm_num
      constructor <;> intro h <;> linarith
    · next h =>
      rw [decide_eq_true_iff, ← Nat.cast_le (α := ℚ),
        Int.toNat_of_nonpos (by omega : guess ≤ 0)]
      push_cast [cast_twoTo]
      rw [pow_zero, one_div, mul_assoc, inv_mul_le_iff₀ (by positivity), mul_comm _ (num : ℚ)]
      norm_num
  have hlast : lastPlace num den =
      max (-1074) (if (2 : ℚ) ^ (guess + 53) ≤ num / den then guess + 1 else guess) := by
    unfold lastPlace
    simp only [← hguess, hreached]
  obtain ⟨place, hplace, hplaceLow, hplaceHigh⟩ : ∃ place, lastPlace num den = max (-1074) place ∧
      (2 : ℚ) ^ (place + 52) ≤ num / den ∧ (num / den : ℚ) < 2 ^ (place + 53) := by
    split at hlast
    · next h =>
      exact ⟨guess + 1, hlast, by rwa [add_assoc], by rwa [add_assoc]⟩
    · next h =>
      exact ⟨guess, hlast, hlow, not_le.1 h⟩
  rw [hplace]
  refine ⟨le_max_left _ _, ?_, ?_⟩
  · exact lt_of_lt_of_le hplaceHigh (zpow_le_zpow_right₀ (by norm_num) (by omega))
  · rcases max_choice (-1074) place with hm | hm
    · exact .inl hm
    · exact .inr (by rwa [hm])

theorem nearestBits_eq (hden : 0 < den) (h : Rounds (num / den / 2 ^ lastPlace num den) n) :
    nearestBits num den =
      min ((lastPlace num den + 1074).toNat * 2 ^ 52 + n) (2047 * 2 ^ 52) := by
  have htwo : twoTo 52 = 2 ^ 52 := rfl
  unfold nearestBits
  generalize lastPlace num den = place at *
  have hsignificand : (if 0 ≤ place then roundDiv num (den * twoTo place.toNat)
      else roundDiv (num * twoTo (-place).toNat) den) = n := by
    rw [zpow_eq_div 2 place] at h
    split
    · next hp =>
      apply roundDiv_eq (Nat.mul_pos hden (Nat.pow_pos (by norm_num)))
      rw [Int.toNat_of_nonpos (by omega : -place ≤ 0), pow_zero, div_one, div_div] at h
      push_cast [cast_twoTo]
      exact h
    · next hp =>
      apply roundDiv_eq hden
      rw [Int.toNat_of_nonpos (by omega : place ≤ 0), pow_zero, one_div, div_inv_eq_mul,
        div_mul_eq_mul_div] at h
      push_cast [cast_twoTo]
      exact h
  simp only [hsignificand, htwo]

end

structure Basin.Contains (r : Basin) (q : ℚ) : Prop where
  low : (r.low : ℚ) ≤ q
  high : q ≤ r.high
  strict : r.closed = false → (r.low : ℚ) < q ∧ q < r.high

section

variable {num den m : ℕ} {e : ℤ}

/-- Below a power of two the basin is half as wide as above it. -/
theorem cast_low (hm : 0 < m) (e : ℤ) :
    ((basin m e).low : ℚ) = if m = 2 ^ 52 ∧ -1074 < e then (4 * m - 1 : ℚ) else 4 * m - 2 := by
  have htwo : twoTo 52 = 2 ^ 52 := rfl
  simp only [basin, htwo]
  split
  · rw [Nat.cast_sub (by omega)]
    push_cast
    rfl
  · rw [Nat.cast_sub (by omega)]
    push_cast
    rfl

theorem le_cast_low (hm : 0 < m) (e : ℤ) : (4 * m - 2 : ℚ) ≤ (basin m e).low := by
  rw [cast_low hm]
  split <;> linarith

theorem cast_high (m : ℕ) (e : ℤ) : ((basin m e).high : ℚ) = 4 * m + 2 := by
  simp [basin]

theorem Basin.Contains.rounds {w : ℚ} (hm : 0 < m) (h : (basin m e).Contains (4 * w)) :
    Rounds w m := by
  obtain ⟨hlow, hhigh, hstrict⟩ := h
  have hlow' := le_cast_low hm e
  rw [cast_high] at hhigh hstrict
  refine ⟨by linarith, by linarith, fun hodd => ?_⟩
  obtain ⟨h1, h2⟩ := hstrict (by simp [basin, hodd])
  exact ⟨by linarith, by linarith⟩

theorem Basin.Contains.rounds_below {w : ℚ} (he : -1074 < e)
    (h : (basin (2 ^ 52) e).Contains (4 * w)) (hw : w < 2 ^ 52) : Rounds (2 * w) (2 ^ 53) := by
  -- Just below a power of two there is one more binary place.
  have hlow := h.low
  rw [cast_low (by norm_num), if_pos ⟨rfl, he⟩] at hlow
  push_cast at hlow
  have hcast : ((2 ^ 53 : ℕ) : ℚ) = 2 ^ 53 := by norm_num
  refine ⟨by rw [hcast]; linarith, by rw [hcast]; linarith, fun hodd => ?_⟩
  norm_num at hodd

theorem place_cases {w : ℚ} {place : ℤ} (hm : 0 < m) (h : Canonical m e)
    (hq : (basin m e).Contains (4 * w)) (hfirst : -1074 ≤ place)
    (hbelow : w * 2 ^ e < 2 ^ (place + 53))
    (hbig : place = -1074 ∨ (2 : ℚ) ^ (place + 52) ≤ w * 2 ^ e) :
    place = e ∨ place = e - 1 ∧ m = 2 ^ 52 ∧ w < 2 ^ 52 := by
  have hpos : (0 : ℚ) < 2 ^ e := by positivity
  have hscale : ∀ k : ℤ, (2 : ℚ) ^ (k + e) = 2 ^ k * 2 ^ e := fun k => zpow_add₀ (by norm_num) k e
  have hmq : (m : ℚ) ≤ 2 ^ 53 - 1 := by
    have : (m + 1 : ℚ) ≤ 2 ^ 53 := by exact_mod_cast h.significand
    linarith
  have hlow := (le_cast_low hm e).trans hq.low
  have hhigh := hq.high
  rw [cast_high] at hhigh
  have hle : place ≤ e := by
    rcases hbig with rfl | hbig
    · exact h.least
    · have hlt : (2 : ℚ) ^ (place + 52) < 2 ^ (53 + e) := by
        refine lt_of_le_of_lt hbig ?_
        rw [hscale]
        apply mul_lt_mul_of_pos_right _ hpos
        norm_num
        linarith
      have := (zpow_lt_zpow_iff_right₀ (by norm_num : (1 : ℚ) < 2)).1 hlt
      omega
  rcases eq_or_lt_of_le hle with rfl | hlt
  · exact .inl rfl
  · have hnormal : 2 ^ 52 ≤ m := h.normal.resolve_left (by omega)
    have hmq' : (2 ^ 52 : ℚ) ≤ m := by exact_mod_cast hnormal
    -- One more place is the most that an amount so close below a power of two can have.
    obtain rfl : place = e - 1 := by
      by_contra hne
      have hsmall : w * 2 ^ e < 2 ^ (51 + e) :=
        lt_of_lt_of_le hbelow (zpow_le_zpow_right₀ (by norm_num) (by omega))
      rw [hscale, mul_lt_mul_iff_left₀ hpos] at hsmall
      norm_num at hsmall
      linarith
    have hw : w < 2 ^ 52 := by
      rw [show e - 1 + 53 = 52 + e by omega, hscale, mul_lt_mul_iff_left₀ hpos] at hbelow
      exact hbelow
    have hlt : (m : ℚ) < 2 ^ 52 + 1 := by linarith
    norm_cast at hlt
    exact .inr ⟨rfl, by omega, hw⟩

theorem nearestBits_of_contains (hm : 0 < m) (h : Canonical m e) (hnum : 0 < num)
    (hden : 0 < den) (hq : (basin m e).Contains (num / den / 2 ^ (e - 2))) :
    nearestBits num den = (e + 1074).toNat * 2 ^ 52 + m := by
  have hmax := h.significand
  have hlast := h.greatest
  obtain ⟨hfirst, hbelow, hbig⟩ := lastPlace_spec hnum hden
  have hbits := fun n => @nearestBits_eq num den n hden
  generalize lastPlace num den = place at *
  generalize (num / den : ℚ) = v at *
  have hpos : (0 : ℚ) < 2 ^ e := by positivity
  obtain ⟨w, rfl⟩ : ∃ w : ℚ, v = w * 2 ^ e := ⟨v / 2 ^ e, by field_simp⟩
  have hquarter : w * 2 ^ e / 2 ^ (e - 2) = 4 * w := by
    rw [zpow_sub₀ (by norm_num)]
    field_simp
    norm_num
  rw [hquarter] at hq
  rcases place_cases hm h hq hfirst hbelow hbig with rfl | ⟨rfl, rfl, hw⟩
  · have hrounds : Rounds (w * 2 ^ place / 2 ^ place) m := by
      rw [mul_div_cancel_right₀ _ hpos.ne']
      exact hq.rounds hm
    rw [hbits m hrounds]
    exact min_eq_left (by omega)
  · have hrounds : Rounds (w * 2 ^ e / 2 ^ (e - 1)) (2 ^ 53) := by
      have hhalf : w * 2 ^ e / 2 ^ (e - 1) = 2 * w := by
        rw [zpow_sub₀ (by norm_num)]
        field_simp
      rw [hhalf]
      exact hq.rounds_below (by omega) hw
    rw [hbits _ hrounds, min_eq_left (by omega)]
    omega

/-- A quotient in the basin of a positive double rounds to it. -/
theorem nearest_of_contains {x : Float} (hx : value x = .finite false m e) (hm : 0 < m)
    (hnum : 0 < num) (hden : 0 < den) (hq : (basin m e).Contains (num / den / 2 ^ (e - 2))) :
    nearest false num den = x := by
  obtain ⟨hcanonical, rfl⟩ := canonical_of_value hx
  simp [nearest, hnum.ne', nearestBits_of_contains hm hcanonical hnum hden hq]

theorem unsigned_of_nearest {negative : Bool}
    (h : value (nearest false num den) = .finite negative m e) :
    negative = false := by
  have htop : value (Float.ofBits (UInt64.ofNat (2047 * 2 ^ 52))) = .infinite false := by
    decide +kernel
  simp only [nearest, Bool.false_eq_true, if_false] at h
  generalize hbits : (if num = 0 then 0 else nearestBits num den) = bits at h
  have hle : bits ≤ 2047 * 2 ^ 52 := by
    rw [← hbits]
    split
    · exact Nat.zero_le _
    · exact Nat.min_le_right _ _
  rcases Nat.lt_or_eq_of_le hle with hlt | rfl
  · have hsign : bits / twoTo 63 = 0 := Nat.div_eq_of_lt (Nat.lt_of_lt_of_le hlt (by decide))
    rw [value, toBits_ofBits hlt, valueOfBits, hsign] at h
    split at h
    · split at h <;> cases h
    · split at h <;> cases h <;> rfl
  · rw [htop] at h
    cases h

end

end GridCalc.Decimal
