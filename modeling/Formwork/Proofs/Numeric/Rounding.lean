import Formwork.Proofs.Numeric.Nearest

/-!
# Rounding to 53 bits

A magnitude is cut to 53 binary digits in steps, each of which drops a digit and keeps what a
rounding needs to know of the dropped ones.

- **Steps** (`Represents`): what is kept of a number that is being cut (`represents_shiftRight`),
  and the multiple that is nearest to it (`roundedMantissa_spec`).
- **Rounding** (`roundWithAccuracy_spec`): the magnitude that is left is nearest to the number.
-/

namespace Formwork.Numeric

open Float.Model Float.Model.UnpackedFloat

/-! ## Steps -/

/-- A significand stands for a number: the first dropped digit says on which side of the half the
rest of it is, and the others whether there is more. -/
def Represents (em : ExtendedMantissa) (r : ℚ) : Prop :=
  match em.roundBit, em.stickyBit with
  | false, false => r = em.mantissa
  | false, true => em.mantissa < r ∧ r < em.mantissa + 1 / 2
  | true, false => r = em.mantissa + 1 / 2
  | true, true => em.mantissa + 1 / 2 < r ∧ r < em.mantissa + 1

section Steps

variable {em : ExtendedMantissa} {r : ℚ}

theorem represents_natCast (m : ℕ) : Represents (.ofMantissaAndAccuracy m .exact) m := rfl

/-- A quotient is represented by its whole part and what is known of its remainder. -/
theorem represents_div (n : ℕ) {d : ℕ} (hd : 0 < d) :
    Represents (.ofMantissaAndAccuracy (n / d) (accuracyOfFraction (n % d) d)) (n / d) := by
  have hd' : (0 : ℚ) < d := by exact_mod_cast hd
  have hsplit : (n : ℚ) / d = (n / d : ℕ) + (n % d : ℕ) / d := by
    rw [eq_comm, ← eq_sub_iff_add_eq', div_eq_iff hd'.ne', sub_mul, div_mul_cancel₀ _ hd'.ne',
      eq_sub_iff_add_eq]
    exact_mod_cast Nat.mod_add_div' n d
  have hlt : ((n % d : ℕ) : ℚ) / d < 1 := by
    rw [div_lt_iff₀ hd', one_mul]
    exact_mod_cast Nat.mod_lt n hd
  rw [hsplit, accuracyOfFraction]
  generalize n / d = m
  generalize n % d = f at hlt
  split
  · next h0 =>
    rw [h0, Nat.cast_zero, zero_div, add_zero]
    exact represents_natCast m
  · next h0 =>
    have hpos : (0 : ℚ) < f / d := div_pos (by exact_mod_cast Nat.pos_of_ne_zero h0) hd'
    rcases lt_trichotomy (2 * f) d with h | h | h
    · rw [compare_lt_iff_lt.mpr h]
      have hhalf : (f : ℚ) / d < 1 / 2 := by
        rw [div_lt_div_iff₀ hd' two_pos, mul_comm, one_mul]
        exact_mod_cast h
      exact ⟨lt_add_of_pos_right _ hpos, (add_lt_add_iff_left _).mpr hhalf⟩
    · rw [compare_eq_iff_eq.mpr h]
      have hhalf : (f : ℚ) / d = 1 / 2 := by
        rw [div_eq_div_iff hd'.ne' two_ne_zero, mul_comm, one_mul]
        exact_mod_cast h
      rw [hhalf]
      rfl
    · rw [compare_gt_iff_gt.mpr h]
      have hhalf : (1 : ℚ) / 2 < f / d := by
        rw [div_lt_div_iff₀ two_pos hd', mul_comm (f : ℚ), one_mul]
        exact_mod_cast h
      exact ⟨(add_lt_add_iff_left _).mpr hhalf, (add_lt_add_iff_left _).mpr hlt⟩

theorem represents_shiftRightOne (h : Represents em r) : Represents em.shiftRightOne (r / 2) := by
  obtain ⟨m, first, more⟩ := em
  obtain ⟨k, rfl | rfl⟩ := Nat.even_or_odd' m
  · have hshift : ExtendedMantissa.shiftRightOne ⟨2 * k, first, more⟩ =
        ⟨k, false, first || more⟩ := by simp [ExtendedMantissa.shiftRightOne]
    rw [hshift]
    cases first <;> cases more <;> simp only [Represents, Bool.or_false, Bool.or_true] at h ⊢ <;>
      push_cast at h <;> first | linarith | (constructor <;> linarith)
  · have hshift : ExtendedMantissa.shiftRightOne ⟨2 * k + 1, first, more⟩ =
        ⟨k, true, first || more⟩ := by simp [ExtendedMantissa.shiftRightOne]; omega
    rw [hshift]
    cases first <;> cases more <;> simp only [Represents, Bool.or_false, Bool.or_true] at h ⊢ <;>
      push_cast at h <;> first | linarith | (constructor <;> linarith)

theorem represents_shiftRight (h : Represents em r) (k : ℕ) :
    Represents (em >>> k) (r / 2 ^ k) := by
  induction k with
  | zero =>
    rw [pow_zero, div_one]
    exact h
  | succ k ih =>
    have hstep : r / 2 ^ (k + 1) = r / 2 ^ k / 2 := by rw [pow_succ, div_div]
    rw [hstep]
    exact represents_shiftRightOne ih

/-- The nearest multiple is half a step away at most, and even in the middle between two. -/
theorem roundedMantissa_spec (h : Represents em r) :
    |r - em.roundedMantissa| ≤ 1 / 2 ∧
      (|r - em.roundedMantissa| = 1 / 2 → Even em.roundedMantissa) := by
  match em, h with
  | ⟨m, false, false⟩, h =>
    have hr : r = m := h
    show |r - m| ≤ 1 / 2 ∧ (|r - m| = 1 / 2 → Even m)
    rw [hr, sub_self, abs_zero]
    exact ⟨by norm_num, fun h0 => absurd h0 (by norm_num)⟩
  | ⟨m, false, true⟩, ⟨hlow, hhigh⟩ =>
    show |r - m| ≤ 1 / 2 ∧ (|r - m| = 1 / 2 → Even m)
    dsimp only at hlow hhigh
    rw [abs_of_pos (by linarith)]
    exact ⟨by linarith, fun heq => by linarith⟩
  | ⟨m, true, false⟩, h =>
    have hr : r = m + 1 / 2 := h
    show |r - (m + m % 2 : ℕ)| ≤ 1 / 2 ∧ (|r - (m + m % 2 : ℕ)| = 1 / 2 → Even (m + m % 2))
    have heven : Even (m + m % 2) := by
      rw [Nat.even_iff]
      omega
    refine ⟨?_, fun _ => heven⟩
    rw [hr]
    rcases Nat.mod_two_eq_zero_or_one m with h2 | h2 <;> rw [h2] <;> norm_num
  | ⟨m, true, true⟩, ⟨hlow, hhigh⟩ =>
    show |r - (m + 1 : ℕ)| ≤ 1 / 2 ∧ (|r - (m + 1 : ℕ)| = 1 / 2 → Even (m + 1))
    dsimp only at hlow hhigh
    push_cast
    rw [abs_of_neg (by linarith)]
    exact ⟨by linarith, fun heq => by linarith⟩

theorem represents_bounds (h : Represents em r) : (em.mantissa : ℚ) ≤ r ∧ r < em.mantissa + 1 := by
  match em, h with
  | ⟨m, false, false⟩, h =>
    have hr : r = m := h
    exact ⟨hr.ge, by linarith⟩
  | ⟨m, false, true⟩, ⟨hlow, hhigh⟩ => exact ⟨hlow.le, by linarith⟩
  | ⟨m, true, false⟩, h =>
    have hr : r = m + 1 / 2 := h
    exact ⟨by linarith, by linarith⟩
  | ⟨m, true, true⟩, ⟨hlow, hhigh⟩ => exact ⟨by linarith, hhigh⟩

end Steps

/-! ## Rounding -/

section Rounding

variable {m : ℕ} {e : ℤ} {accuracy : Accuracy} {r : ℚ}

theorem mantissa_ofMantissaAndAccuracy :
    (ExtendedMantissa.ofMantissaAndAccuracy m accuracy).mantissa = m := by
  match accuracy with
  | .exact => rfl
  | .inexact .lt => rfl
  | .inexact .eq => rfl
  | .inexact .gt => rfl

/-- The exponent that leaves 53 digits, or the least one. -/
theorem targetExponent_binary64 (n : ℤ) :
    Format.binary64.targetExponent n = max (n - 53) (-1074) := rfl

theorem shiftToExponent_eq {k : ℤ} (h : e ≤ k) :
    shiftToExponent m e accuracy k =
      (ExtendedMantissa.ofMantissaAndAccuracy m accuracy >>> (k - e).toNat, k) := by
  have hsum : e + (k - e).toNat = k := by omega
  unfold shiftToExponent
  dsimp only
  rw [hsum]

/-- What has 53 digits at most is not cut. -/
theorem shiftToTargetExponent_canonical (hm : m < 2 ^ 53) (he : -1074 ≤ e) :
    shiftToTargetExponent .binary64 m e .exact = (⟨m, false, false⟩, e) := by
  have hlog : m.log2 < 53 := by
    rcases eq_or_ne m 0 with rfl | h0
    · decide
    · exact (Nat.log2_lt h0).mpr hm
  have htarget : (Format.binary64.targetExponent (totalExponent m e) - e).toNat = 0 := by
    rw [targetExponent_binary64, totalExponent]
    omega
  unfold shiftToTargetExponent shiftToExponent
  dsimp only
  rw [htarget, Nat.cast_zero, add_zero]
  rfl

/-- A carry to a further digit is cut to one digit less. -/
theorem shiftToTargetExponent_carry (he : -1074 ≤ e) :
    shiftToTargetExponent .binary64 (2 ^ 53) e .exact = (⟨2 ^ 52, false, false⟩, e + 1) := by
  have htarget : Format.binary64.targetExponent (totalExponent (2 ^ 53) e) = e + 1 := by
    rw [targetExponent_binary64, totalExponent, Nat.log2_two_pow]
    omega
  have hshift : (e + 1 - e).toNat = 1 := by omega
  unfold shiftToTargetExponent
  dsimp only
  rw [htarget, shiftToExponent_eq (by omega), hshift]
  rfl

/-- What is left of a rounded significand, after a carry has been cut. -/
theorem roundWithAccuracy_eq {em : ExtendedMantissa} {t : ℤ} (ht : -1074 ≤ t)
    (hfirst : shiftToTargetExponent .binary64 m e accuracy = (em, t))
    (hle : em.roundedMantissa ≤ 2 ^ 53) :
    roundWithAccuracy .binary64 .positive m e accuracy =
      if em.roundedMantissa < 2 ^ 53 then magnitude em.roundedMantissa t
      else magnitude (2 ^ 52) (t + 1) := by
  have hsecond : roundWithAccuracy .binary64 .positive m e accuracy =
      magnitude (shiftToTargetExponent .binary64 em.roundedMantissa t .exact).1.mantissa
        (shiftToTargetExponent .binary64 em.roundedMantissa t .exact).2 := by
    unfold roundWithAccuracy
    rw [hfirst]
    rfl
  rw [hsecond]
  split
  · next hlt => rw [shiftToTargetExponent_canonical hlt ht]
  · next hge =>
    have hmax : em.roundedMantissa = 2 ^ 53 := by omega
    rw [hmax, shiftToTargetExponent_carry ht]

/-- What is rounded to 53 digits may have a carry to the next one, but no more. -/
theorem roundedMantissa_le {em : ExtendedMantissa} (h : Represents em r) (hr : r < 2 ^ 53) :
    em.roundedMantissa ≤ 2 ^ 53 := by
  have hnear := (abs_le.mp (roundedMantissa_spec h).1).1
  have hlt : (em.roundedMantissa : ℚ) < (2 ^ 53 + 1 : ℕ) := by push_cast; linarith
  exact Nat.lt_succ_iff.mp (by exact_mod_cast hlt)

/-- A significand of 53 digits, or of fewer with the least exponent, is rounded to the nearest
magnitude. -/
theorem isNearest_roundedMantissa {em : ExtendedMantissa} {t : ℤ} (h : Represents em r)
    (hleast : -1074 ≤ t) (hleft : 2 ^ 52 ≤ r ∨ t = -1074) (hright : r < 2 ^ 53) :
    ∃ k i, IsNearest (r * 2 ^ t) k i ∧ magnitude k i =
      if em.roundedMantissa < 2 ^ 53 then magnitude em.roundedMantissa t
      else magnitude (2 ^ 52) (t + 1) := by
  obtain ⟨hnear, heven⟩ := roundedMantissa_spec h
  have hle := roundedMantissa_le h hright
  generalize em.roundedMantissa = n at hnear heven hle
  have hge : 2 ^ 52 ≤ n ∨ t = -1074 := by
    refine hleft.imp_left fun hleft => ?_
    have hlow : ((2 ^ 52 - 1 : ℕ) : ℚ) < n := by push_cast; linarith [(abs_le.mp hnear).2]
    have hlow' : 2 ^ 52 - 1 < n := by exact_mod_cast hlow
    omega
  by_cases hlt : n < 2 ^ 53
  · rw [if_pos hlt]
    exact ⟨n, t, isNearest_of_rounded ⟨hlt, hleast, hge⟩ rfl hleft hnear heven, rfl⟩
  · rw [if_neg hlt]
    obtain rfl : n = 2 ^ 53 := by omega
    refine ⟨2 ^ 52, t + 1, isNearest_of_rounded ⟨by decide, by omega, .inl le_rfl⟩ ?_ hleft hnear
      fun _ => by decide, rfl⟩
    rw [zpow_add_one₀ two_ne_zero]
    push_cast
    ring

/-- The magnitude that is left is nearest to the number, if no digits are missing. -/
theorem roundWithAccuracy_spec
    (h : Represents (ExtendedMantissa.ofMantissaAndAccuracy m accuracy) r)
    (hfit : 52 ≤ m.log2 ∨ e ≤ -1074) :
    ∃ k i, IsNearest (r * 2 ^ e) k i ∧
      roundWithAccuracy .binary64 .positive m e accuracy = magnitude k i := by
  obtain ⟨hlow, hhigh⟩ := represents_bounds h
  rw [mantissa_ofMantissaAndAccuracy] at hlow hhigh
  set t := max ((m.log2 : ℤ) + 1 + e - 53) (-1074) with ht
  have hleast : -1074 ≤ t := le_max_right _ _
  have het : e ≤ t := by omega
  set d := (t - e).toNat with hd
  have hfirst : shiftToTargetExponent .binary64 m e accuracy =
      (ExtendedMantissa.ofMantissaAndAccuracy m accuracy >>> d, t) := shiftToExponent_eq het
  have hpow : (0 : ℚ) < 2 ^ d := by positivity
  have hvalue : r * 2 ^ e = r / 2 ^ d * 2 ^ t := by
    have hsum : t = d + e := by omega
    rw [hsum, zpow_add₀ two_ne_zero, zpow_natCast, ← mul_assoc, div_mul_cancel₀ _ hpow.ne']
  -- The cut number has 53 digits before the point, or the least exponent.
  have hleft : 2 ^ 52 ≤ r / 2 ^ d ∨ t = -1074 := by
    refine or_iff_not_imp_right.mpr fun htne => ?_
    have hlog : m.log2 = 52 + d := by omega
    have hm : m ≠ 0 := by
      rintro rfl
      rw [Nat.log2_zero] at hlog
      omega
    rw [le_div_iff₀ hpow, ← pow_add, ← hlog]
    exact le_trans (by exact_mod_cast Nat.log2_self_le hm) hlow
  have hright : r / 2 ^ d < 2 ^ 53 := by
    have hlog : m.log2 + 1 ≤ 53 + d := by omega
    have hm : m + 1 ≤ 2 ^ (53 + d) := Nat.lt_log2_self.trans_le (Nat.pow_le_pow_right two_pos hlog)
    rw [div_lt_iff₀ hpow, ← pow_add]
    exact hhigh.trans_le (by exact_mod_cast hm)
  have hcut := represents_shiftRight h d
  obtain ⟨k, i, hnear, hk⟩ := isNearest_roundedMantissa hcut hleast hleft hright
  rw [hvalue]
  exact ⟨k, i, hnear, (roundWithAccuracy_eq hleast hfirst (roundedMantissa_le hcut hright)).trans
    hk.symm⟩

end Rounding

end Formwork.Numeric
