import Formwork.Numeric.Decimal
import Formwork.Proofs.Numeric.Rounding

/-!
# Decimals as numbers of 64 bits

- **Quotients** (`div_spec`): the quotient of two magnitudes is rounded to the nearest one.
- **Integers** (`unpack_toFloat`): what has 53 binary digits at most is exact.
- **Decimals** (`roundsTo_ofScientific`): digits with decimal places are rounded to the nearest
  number, and so are integers and decimals with their signs (`roundsTo_floatOfInt`,
  `Decimal.roundsTo_toFloat`).
-/

namespace Formwork.Numeric

open Float.Model Float.Model.UnpackedFloat

/-! ## Quotients -/

section Quotients

variable {m n : ℕ} {e i : ℤ}

/-- The nearest magnitude to zero, and to what is half the least one at most. -/
theorem isNearest_zero {q : ℚ} (h0 : 0 ≤ q) (h : q ≤ 2 ^ (-1074 : ℤ) / 2) :
    IsNearest q 0 (-1074) := by
  refine isNearest_of_grid (n := 0) (t := -1074) ⟨by decide, le_rfl, .inr rfl⟩ rfl (.inr rfl) ?_
    fun _ => Even.zero
  rwa [Nat.cast_zero, zero_mul, sub_zero, abs_of_nonneg h0]

/-- What is moved to the left has so many binary digits more. -/
theorem two_pow_le_shiftLeft (hm : 0 < m) {k s : ℕ} (h : k ≤ m.log2 + s) : 2 ^ k ≤ m <<< s := by
  rw [Nat.shiftLeft_eq]
  calc 2 ^ k ≤ 2 ^ (m.log2 + s) := Nat.pow_le_pow_right two_pos h
    _ = 2 ^ m.log2 * 2 ^ s := pow_add _ _ _
    _ ≤ m * 2 ^ s := Nat.mul_le_mul_right _ (Nat.log2_self_le hm.ne')

/-- The quotient of two magnitudes is rounded to the nearest one. -/
theorem div_spec (hm : 0 < m) (hn : 0 < n) :
    ∃ k j, IsNearest (m * 2 ^ e / (n * 2 ^ i)) k j ∧
      UnpackedFloat.div .binary64 (.finite .positive m e hm) (.finite .positive n i hn) =
        magnitude k j := by
  set t := min (e - i) (max (totalExponent m e - totalExponent n i - 53) (-1074)) with ht
  set s := (e - i - t).toNat with hs
  have hround : UnpackedFloat.div .binary64 (.finite .positive m e hm) (.finite .positive n i hn) =
      roundWithAccuracy .binary64 .positive ((m <<< s) / n) t
        (accuracyOfFraction ((m <<< s) % n) n) := rfl
  have hfit : 52 ≤ ((m <<< s) / n).log2 ∨ t ≤ -1074 := by
    refine or_iff_not_imp_right.mpr fun hgt => ?_
    have hdigits : n.log2 + 53 ≤ m.log2 + s := by
      rw [ht, totalExponent, totalExponent] at hgt
      rw [ht, totalExponent, totalExponent] at hs
      omega
    have hquotient : 2 ^ 52 ≤ (m <<< s) / n := by
      rw [Nat.le_div_iff_mul_le hn]
      calc 2 ^ 52 * n ≤ 2 ^ 52 * 2 ^ (n.log2 + 1) :=
            Nat.mul_le_mul_left _ Nat.lt_log2_self.le
        _ = 2 ^ (n.log2 + 53) := by ring
        _ ≤ m <<< s := two_pow_le_shiftLeft hm hdigits
    exact (Nat.le_log2 ((Nat.two_pow_pos 52).trans_le hquotient).ne').mpr hquotient
  have hvalue : (m : ℚ) * 2 ^ e / (n * 2 ^ i) = (m <<< s : ℕ) / n * 2 ^ t := by
    have hsum : (2 : ℚ) ^ e / 2 ^ i = 2 ^ s * 2 ^ t := by
      rw [← zpow_sub₀ two_ne_zero, ← zpow_natCast, ← zpow_add₀ two_ne_zero]
      congr 1
      omega
    rw [Nat.shiftLeft_eq, mul_div_mul_comm, hsum]
    push_cast
    ring
  rw [hround, hvalue]
  exact roundWithAccuracy_spec (represents_div _ hn) hfit

theorem div_magnitude_spec (hn : 0 < n) :
    ∃ k j, IsNearest (m * 2 ^ e / (n * 2 ^ i)) k j ∧
      UnpackedFloat.div .binary64 (magnitude m e) (.finite .positive n i hn) = magnitude k j := by
  rcases Nat.eq_zero_or_pos m with rfl | hm
  · refine ⟨0, -1074, ?_, rfl⟩
    rw [Nat.cast_zero, zero_mul, zero_div]
    exact isNearest_zero le_rfl (div_nonneg (zpow_nonneg two_pos.le _) two_pos.le)
  · have hmagnitude : magnitude m e = .finite .positive m e hm := dif_neg hm.ne'
    rw [hmagnitude]
    exact div_spec hm hn

/-- An integer is rounded to the nearest magnitude. -/
theorem round_spec (hm : 0 < m) :
    ∃ k j, IsNearest m k j ∧ UnpackedFloat.round .binary64 .positive m 0 = magnitude k j := by
  set s := (0 - max (totalExponent m 0 - 53) (-1074)).toNat with hs
  have hround : UnpackedFloat.round .binary64 .positive m 0 =
      roundWithAccuracy .binary64 .positive (m <<< s) (0 - s) .exact := rfl
  have hfit : 52 ≤ (m <<< s).log2 := by
    have hdigits : 52 ≤ m.log2 + s := by
      rw [totalExponent] at hs
      omega
    rw [Nat.le_log2 (Nat.shiftLeft_pos_iff.mpr hm).ne']
    exact two_pow_le_shiftLeft hm hdigits
  have hvalue : (m : ℚ) = (m <<< s : ℕ) * 2 ^ (0 - s : ℤ) := by
    rw [Nat.shiftLeft_eq, zero_sub, zpow_neg, zpow_natCast]
    push_cast
    rw [mul_inv_cancel_right₀ (by positivity)]
  obtain ⟨k, j, hnear, hk⟩ := roundWithAccuracy_spec (represents_natCast (m <<< s)) (.inl hfit)
  exact ⟨k, j, hvalue ▸ hnear, hround.trans hk⟩

/-- Decimals with many more places than digits are less than half the least number. -/
theorem quotient_le_least (h : 2048 + m.log2 < n) : (m : ℚ) / 10 ^ n ≤ 2 ^ (-1074 : ℤ) / 2 := by
  have hpow : m * 2 ^ 1075 ≤ 10 ^ n := by
    calc m * 2 ^ 1075 ≤ 2 ^ (m.log2 + 1) * 2 ^ 1075 :=
          Nat.mul_le_mul_right _ Nat.lt_log2_self.le
      _ = 2 ^ (m.log2 + 1 + 1075) := (pow_add _ _ _).symm
      _ ≤ 2 ^ n := Nat.pow_le_pow_right two_pos (by omega)
      _ ≤ 10 ^ n := Nat.pow_le_pow_left (by decide) n
  have hhalf : (2 : ℚ) ^ (-1074 : ℤ) / 2 = 1 / 2 ^ 1075 := by
    rw [zpow_neg, ← one_div, div_div, pow_succ]
    rfl
  rw [hhalf, div_le_div_iff₀ (pow_pos (by norm_num) n) (pow_pos two_pos 1075), one_mul]
  exact_mod_cast hpow

/-- Digits with decimal places are divided, unless there are none or far too many places. -/
theorem ofScientific_spec (digits places : ℕ) :
    ∃ k j, IsNearest (digits / 10 ^ places) k j ∧
      UnpackedFloat.ofScientific .binary64 digits (Int.negOfNat places) = magnitude k j := by
  have hnonneg : (0 : ℚ) ≤ digits / 10 ^ places :=
    div_nonneg digits.cast_nonneg (pow_nonneg (by norm_num) places)
  have hbits : (2 : ℤ) ^ Format.binary64.exponentBits = 2048 := rfl
  have hneg : Int.negOfNat places = -(places : ℤ) := Int.negOfNat_eq
  unfold UnpackedFloat.ofScientific
  rw [hneg, hbits]
  split
  · next h0 =>
    refine ⟨0, -1074, isNearest_zero hnonneg ?_, rfl⟩
    rw [h0, Nat.cast_zero, zero_div]
    exact div_nonneg (zpow_nonneg two_pos.le _) two_pos.le
  · next h0 =>
    have hpos := Nat.pos_of_ne_zero h0
    rw [if_neg (by omega)]
    split
    · exact ⟨0, -1074, isNearest_zero hnonneg (quotient_le_least (by omega)), rfl⟩
    · split
      · obtain rfl : places = 0 := by omega
        have hfit : 52 ≤ (digits <<< 53 * 10 ^ 0).log2 := by
          rw [pow_zero, mul_one, Nat.le_log2 (Nat.shiftLeft_pos_iff.mpr hpos).ne']
          exact two_pow_le_shiftLeft hpos (by omega)
        obtain ⟨k, j, hnear, hk⟩ :=
          roundWithAccuracy_spec (e := -53) (represents_natCast (digits <<< 53 * 10 ^ 0)) (.inl hfit)
        have hvalue : (digits : ℚ) / 10 ^ 0 = (digits <<< 53 * 10 ^ 0 : ℕ) * 2 ^ (-53 : ℤ) := by
          rw [Nat.shiftLeft_eq, pow_zero, pow_zero, div_one, mul_one, zpow_neg]
          norm_num [mul_assoc]
        exact ⟨k, j, hvalue ▸ hnear, hk⟩
      · have hplaces : (-(-(places : ℤ))).toNat = places := by omega
        have hten : 0 < 10 ^ places := by positivity
        obtain ⟨k, j, hnear, hk⟩ := div_spec (e := 0) (i := 0) hpos hten
        refine ⟨k, j, by simpa using hnear, ?_⟩
        simpa only [hplaces] using hk

end Quotients

/-! ## Decimals -/

/-- Whether an unpacked number is the integer `n`. -/
def isInteger (n : ℕ) : UnpackedFloat → Bool
  | .finite .positive m e _ => m * 2 ^ e.toNat == n * 2 ^ (-e).toNat
  | _ => false

theorem exists_of_isInteger {f : UnpackedFloat} {n : ℕ} (h : isInteger n f = true) :
    ∃ m e hm, f = .finite .positive m e hm ∧ (n : ℚ) = m * 2 ^ e := by
  unfold isInteger at h
  split at h
  · next m e hm =>
    refine ⟨m, e, hm, rfl, ?_⟩
    have hcast : (m : ℚ) * 2 ^ e.toNat = n * 2 ^ (-e).toNat := by exact_mod_cast beq_iff_eq.mp h
    have hsum : (2 : ℚ) ^ e * 2 ^ (-e).toNat = 2 ^ e.toNat := by
      rw [← zpow_natCast, ← zpow_natCast, ← zpow_add₀ two_ne_zero]
      congr 1
      omega
    have hpow : (2 : ℚ) ^ (-e).toNat ≠ 0 := by positivity
    refine mul_right_cancel₀ hpow ?_
    rw [← hcast, mul_assoc, hsum]
  · cases h

/-- The powers of ten of the table. -/
theorem isInteger_powersOfTen : ∀ p (_ : p < Float.exactlyRepresentablePowersOfTen.size),
    isInteger (10 ^ p) Float.exactlyRepresentablePowersOfTen[p].toModel.unpack = true := by
  decide +kernel

/-- An integer of 53 binary digits is exact. -/
theorem unpack_toFloat {n : ℕ} (h : n < 2 ^ 53) :
    ∃ k j, n.toUInt64.toFloat.toModel.unpack = magnitude k j ∧ (n : ℚ) = k * 2 ^ j := by
  have hn : n.toUInt64.toNat = n := UInt64.toNat_ofNat_of_lt (h.trans (by decide))
  rcases Nat.eq_zero_or_pos n with rfl | hpos
  · exact ⟨0, 0, rfl, by simp⟩
  · have hround : n.toUInt64.toFloat.toModel =
        Float.Model.pack (UnpackedFloat.round .binary64 .positive n 0) := by
      show Float.Model.pack (UnpackedFloat.normalize .binary64 n.toUInt64.toNat 0 .positive) = _
      unfold UnpackedFloat.normalize
      rw [hn, compare_gt_iff_gt.mpr (by omega)]
      rfl
    obtain ⟨k, j, hnear, hk⟩ := round_spec hpos
    have hexact := hnear.nearest n 0 h (by decide)
    rw [zpow_zero, mul_one, sub_self, abs_zero, abs_nonpos_iff, sub_eq_zero] at hexact
    have hj : j ≤ 971 := by
      by_contra hgt
      have hk52 : (2 : ℚ) ^ 52 ≤ k := by exact_mod_cast hnear.normal.resolve_right (by omega)
      have hlt : (n : ℚ) * 2 ^ (0 : ℤ) < 2 ^ 52 * 2 ^ j := magnitude_lt_pow h (by omega)
      rw [zpow_zero, mul_one, hexact] at hlt
      exact absurd hlt (mul_le_mul_of_nonneg_right hk52 (by positivity)).not_gt
    refine ⟨k, j, ?_, hexact⟩
    rw [hround, hk, unpack_magnitude hnear.toCanonical hj]

/-- Digits with decimal places are rounded to the nearest number, whether the quotient of exact
numbers is taken or that of the integers. -/
theorem roundsTo_ofScientific (digits places : ℕ) :
    RoundsTo (digits / 10 ^ places) (Float.ofScientific digits true places) := by
  have hnonneg : (0 : ℚ) ≤ digits / 10 ^ places :=
    div_nonneg digits.cast_nonneg (pow_nonneg (by norm_num) places)
  unfold Float.ofScientific
  split
  · next hexact =>
    obtain ⟨k, j, hk, hdigits⟩ := unpack_toFloat hexact.1
    have hsize : places < Float.exactlyRepresentablePowersOfTen.size := Nat.lt_succ_of_le hexact.2
    obtain ⟨m, e, hm, hten, hvalue⟩ := exists_of_isInteger (isInteger_powersOfTen places hsize)
    push_cast at hvalue
    obtain ⟨k', j', hnear, hk'⟩ := div_magnitude_spec (m := k) (e := j) (i := e) hm
    have hdiv : digits.toUInt64.toFloat / Float.exactlyRepresentablePowersOfTen[places] =
        ⟨Float.Model.pack (magnitude k' j')⟩ := by
      rw [← hk', ← hk, ← hten]
      rfl
    dsimp only
    rw [hdigits, hvalue] at hnonneg ⊢
    rw [if_pos rfl, hdiv]
    exact roundsTo_magnitude hnonneg hnear
  · obtain ⟨k, j, hnear, hk⟩ := ofScientific_spec digits places
    have hpack : Float.Model.ofScientific digits (Int.negOfNat places) =
        Float.Model.pack (magnitude k j) := congrArg Float.Model.pack hk
    dsimp only
    rw [if_pos rfl, hpack]
    exact roundsTo_magnitude hnonneg hnear

/-! ## Exact numbers -/

theorem roundsTo_floatOfDecimal (negative : Bool) (digits places : ℕ) :
    RoundsTo ((if negative then -1 else 1) * (digits / 10 ^ places))
      (floatOfDecimal negative digits places) := by
  unfold floatOfDecimal
  cases negative with
  | true =>
    rw [if_pos rfl, if_pos rfl, neg_one_mul]
    exact (roundsTo_ofScientific digits places).neg
  | false =>
    rw [if_neg Bool.false_ne_true, if_neg Bool.false_ne_true, one_mul]
    exact roundsTo_ofScientific digits places

/-- The value of a decimal. -/
def Decimal.value (d : Decimal) : ℚ := d.unscaled / 10 ^ d.scale

/-- A decimal is rounded to the nearest number of 64 bits. -/
theorem Decimal.roundsTo_toFloat (d : Decimal) : RoundsTo d.value d.toFloat := by
  have h := roundsTo_floatOfDecimal (d.unscaled < 0) d.unscaled.natAbs d.scale
  have hsign : (if decide (d.unscaled < 0) = true then (-1 : ℚ) else 1) *
      (d.unscaled.natAbs / 10 ^ d.scale) = d.value := by
    rw [Decimal.value, mul_div_assoc', Nat.cast_natAbs]
    split
    · next hneg => rw [abs_of_neg (of_decide_eq_true hneg), neg_one_mul, Int.cast_neg, neg_neg]
    · next hneg =>
      rw [abs_of_nonneg (not_lt.mp fun hlt => hneg (decide_eq_true hlt)), one_mul]
  rw [← hsign]
  exact h

/-- An integer is rounded to the nearest number of 64 bits. -/
theorem roundsTo_floatOfInt (n : ℤ) : RoundsTo n (floatOfInt n) := by
  have h := Decimal.roundsTo_toFloat ⟨n, 0⟩
  rwa [Decimal.value, pow_zero, div_one] at h

end Formwork.Numeric
