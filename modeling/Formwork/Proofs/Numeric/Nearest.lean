import Mathlib.Algebra.Order.Ring.Abs
import Formwork.Proofs.Numeric.Binary64

/-!
# The nearest number of 64 bits

- **Grids** (`nearest_of_grid`): a multiple of a power of two that is half a step away at most from
  a number with 53 binary digits before the grid is nearest to it, among all magnitudes of 53 bits.
- **Magnitudes** (`IsNearest`): the nearest one, that with an even significand of two.
- **Numbers** (`RoundsTo`): the number of 64 bits that is nearest to a rational one, or infinite if
  that is too great (`roundsTo_magnitude`).
- **Order** (`RoundsTo.lt_iff`): what is out of a bound stays out of it unless it is rounded to it.
-/

namespace Formwork.Numeric

open Float.Model Float.Model.UnpackedFloat

/-! ## Grids -/

section Grids

variable {q u : ℚ} {n k : ℕ}

/-- On a grid, a multiple that is half a step away at most is the nearest one, and there is
another one as near only halfway between them. -/
theorem nearest_multiple (hu : 0 < u) (h : |q - n * u| ≤ u / 2) :
    |q - n * u| ≤ |q - k * u| ∧
      (|q - k * u| = |q - n * u| → (k : ℚ) * u = n * u ∨ |q - n * u| = u / 2) := by
  rcases eq_or_ne k n with rfl | hne
  · exact ⟨le_rfl, fun _ => .inl rfl⟩
  · have hstep : u ≤ |(n : ℚ) * u - k * u| := by
      have hone : (1 : ℚ) ≤ |(n : ℚ) - k| := by
        exact_mod_cast Int.one_le_abs (sub_ne_zero.mpr (Int.ofNat_inj.not.mpr hne.symm))
      calc u = 1 * u := (one_mul u).symm
        _ ≤ |(n : ℚ) - k| * |u| := mul_le_mul hone (le_abs_self u) hu.le (abs_nonneg _)
        _ = |(n : ℚ) * u - k * u| := by rw [← abs_mul, sub_mul]
    have htriangle : |(n : ℚ) * u - k * u| ≤ |q - n * u| + |q - k * u| := by
      rw [abs_sub_comm q (n * u)]
      exact abs_sub_le _ _ _
    exact ⟨by linarith, fun heq => .inr (by linarith)⟩

/-- A multiple of a power of two that is half a step away at most is the nearest magnitude of 53
bits, if there are as many digits before the grid or the grid is the finest one. -/
theorem nearest_of_grid {t e : ℤ} {m : ℕ} (hq : 2 ^ (t + 52) ≤ q ∨ t = -1074)
    (h : |q - n * 2 ^ t| ≤ 2 ^ t / 2) (hm : m < 2 ^ 53) (he : -1074 ≤ e) :
    |q - n * 2 ^ t| ≤ |q - m * 2 ^ e| ∧
      (|q - m * 2 ^ e| = |q - n * 2 ^ t| →
        (m : ℚ) * 2 ^ e = n * 2 ^ t ∨ |q - n * 2 ^ t| = 2 ^ t / 2) := by
  have hu : (0 : ℚ) < 2 ^ t := by positivity
  rcases le_or_gt t e with hte | het
  · have hmultiple : (m : ℚ) * 2 ^ e = (m * 2 ^ (e - t).toNat : ℕ) * 2 ^ t := by
      have hsum : e = (e - t).toNat + t := by omega
      push_cast
      rw [mul_assoc, ← zpow_natCast, ← zpow_add₀ two_ne_zero, ← hsum]
    rw [hmultiple]
    exact nearest_multiple hu h
  · -- A finer magnitude is below the first one of the grid, which is not above the number.
    have hfirst : (2 : ℚ) ^ 52 * 2 ^ t ≤ q := by
      rw [mul_comm, ← zpow_natCast, ← zpow_add₀ two_ne_zero]
      exact hq.resolve_right (by omega)
    have hbelow := magnitude_lt_pow hm het
    have hnear := (nearest_multiple (k := 2 ^ 52) hu h).1
    rw [Nat.cast_pow, Nat.cast_ofNat, abs_of_nonneg (sub_nonneg.mpr hfirst)] at hnear
    have hfar : |q - m * 2 ^ e| = q - m * 2 ^ e := abs_of_pos (by linarith)
    rw [hfar]
    exact ⟨by linarith, fun heq => by linarith⟩

end Grids

/-! ## Magnitudes -/

/-- The magnitude `m · 2 ^ e` of 53 bits is nearest to a number, and its significand is even if
another one is as near. The exponent has no upper bound. -/
structure IsNearest (q : ℚ) (m : ℕ) (e : ℤ) : Prop extends Canonical m e where
  nearest : ∀ (k : ℕ) (i : ℤ), k < 2 ^ 53 → -1074 ≤ i → |q - m * 2 ^ e| ≤ |q - k * 2 ^ i|
  even : ∀ (k : ℕ) (i : ℤ), k < 2 ^ 53 → -1074 ≤ i → |q - k * 2 ^ i| = |q - m * 2 ^ e| →
    (k : ℚ) * 2 ^ i = m * 2 ^ e ∨ Even m

section Magnitudes

variable {q : ℚ} {m n : ℕ} {e t : ℤ}

/-- What is nearest on a grid, with an even multiple halfway between two, is nearest. -/
theorem isNearest_of_grid (hc : Canonical m e) (hvalue : (m : ℚ) * 2 ^ e = n * 2 ^ t)
    (hq : 2 ^ (t + 52) ≤ q ∨ t = -1074) (h : |q - n * 2 ^ t| ≤ 2 ^ t / 2)
    (heven : |q - n * 2 ^ t| = 2 ^ t / 2 → Even m) : IsNearest q m e where
  toCanonical := hc
  nearest k i hk hi := by
    rw [hvalue]
    exact (nearest_of_grid hq h hk hi).1
  even k i hk hi heq := by
    rw [hvalue] at heq ⊢
    exact ((nearest_of_grid hq h hk hi).2 heq).imp_right heven

/-- A number that is rounded to a multiple of a power of two, half to even. -/
theorem isNearest_of_rounded {r : ℚ} (hc : Canonical m e) (hvalue : (m : ℚ) * 2 ^ e = n * 2 ^ t)
    (hr : 2 ^ 52 ≤ r ∨ t = -1074) (h : |r - n| ≤ 1 / 2) (heven : |r - n| = 1 / 2 → Even m) :
    IsNearest (r * 2 ^ t) m e := by
  have hpow : (0 : ℚ) < 2 ^ t := by positivity
  have hscale : |r * 2 ^ t - n * 2 ^ t| = |r - n| * 2 ^ t := by
    rw [← sub_mul, abs_mul, abs_of_pos hpow]
  refine isNearest_of_grid hc hvalue (hr.imp_left fun hr => ?_) ?_ fun heq => heven ?_
  · rw [zpow_add₀ two_ne_zero, mul_comm]
    exact mul_le_mul_of_nonneg_right hr hpow.le
  · rw [hscale]
    linarith [mul_le_mul_of_nonneg_right h hpow.le]
  · rw [hscale, div_eq_mul_one_div, mul_comm] at heq
    exact mul_left_cancel₀ hpow.ne' heq

/-- The least number that is rounded to infinity: it is halfway between the greatest finite number
and the next power of two. -/
def overflow : ℚ := (2 ^ 54 - 1) * 2 ^ (970 : ℤ)

theorem two_mul_overflow :
    2 * overflow = (2 ^ 53 - 1 : ℕ) * 2 ^ (971 : ℤ) + (2 ^ 52 : ℕ) * 2 ^ (972 : ℤ) := by
  have h971 : (2 : ℚ) ^ (971 : ℤ) = 2 ^ (970 : ℤ) * 2 := zpow_add_one₀ two_ne_zero 970
  have h972 : (2 : ℚ) ^ (972 : ℤ) = 2 ^ (971 : ℤ) * 2 := zpow_add_one₀ two_ne_zero 971
  rw [overflow, h972, h971]
  generalize (2 : ℚ) ^ (970 : ℤ) = u
  norm_num
  ring

theorem canonical_greatest : Canonical (2 ^ 53 - 1) 971 := ⟨by decide, by decide, .inl (by decide)⟩

theorem canonical_next : Canonical (2 ^ 52) 972 := ⟨by decide, by decide, .inl le_rfl⟩

/-- The greatest finite magnitude. -/
theorem magnitude_le_greatest (h : Canonical m e) (he : e ≤ 971) :
    (m : ℚ) * 2 ^ e ≤ (2 ^ 53 - 1 : ℕ) * 2 ^ (971 : ℤ) := by
  have hm : m ≤ 2 ^ 53 - 1 := by have := h.lt; omega
  have hpow : (2 : ℚ) ^ e ≤ 2 ^ (971 : ℤ) := zpow_le_zpow_right₀ one_le_two he
  exact mul_le_mul (by exact_mod_cast hm) hpow (by positivity) (by positivity)

theorem IsNearest.lt_overflow (h : IsNearest q m e) (he : e ≤ 971) : q < overflow := by
  by_contra hge
  have hgap := magnitude_lt_of_lt canonical_greatest canonical_next (by decide)
  have hnext := h.nearest (2 ^ 52) 972 (by decide) (by decide)
  have heven := h.even (2 ^ 52) 972 (by decide) (by decide)
  have hle := magnitude_le_greatest h.toCanonical he
  have htwo := two_mul_overflow
  have hsub : |q - m * 2 ^ e| = q - m * 2 ^ e := abs_of_pos (by linarith)
  rw [hsub] at hnext heven
  rcases le_or_gt (((2 ^ 52 : ℕ) : ℚ) * 2 ^ (972 : ℤ)) q with hq | hq
  · rw [abs_of_nonneg (sub_nonneg.mpr hq)] at hnext
    linarith
  · -- Halfway, the significand would have to be even, but it is that of the greatest number.
    rw [abs_of_neg (sub_neg.mpr hq)] at hnext heven
    have hm : m = 2 ^ 53 - 1 :=
      (eq_of_magnitude_eq h.toCanonical canonical_greatest (by linarith)).1
    rcases heven (by linarith) with heq | heven
    · linarith
    · rw [hm] at heven
      exact absurd heven (by decide)

theorem IsNearest.overflow_le (h : IsNearest q m e) (he : 971 < e) : overflow ≤ q := by
  by_contra hlt
  have hgap := magnitude_lt_of_lt canonical_greatest canonical_next (by decide)
  have hnear := h.nearest (2 ^ 53 - 1) 971 (by decide) (by decide)
  have htwo := two_mul_overflow
  have hge : ((2 ^ 52 : ℕ) : ℚ) * 2 ^ (972 : ℤ) ≤ m * 2 ^ e := by
    have hm : 2 ^ 52 ≤ m := h.normal.resolve_right (by omega)
    have hpow : (2 : ℚ) ^ (972 : ℤ) ≤ 2 ^ e := zpow_le_zpow_right₀ one_le_two (by omega)
    exact mul_le_mul (by exact_mod_cast hm) hpow (by positivity) (by positivity)
  rw [abs_of_neg (by linarith)] at hnear
  rcases abs_cases (q - (2 ^ 53 - 1 : ℕ) * 2 ^ (971 : ℤ)) with ⟨habs, -⟩ | ⟨habs, -⟩ <;>
    · rw [habs] at hnear
      linarith

end Magnitudes

/-! ## Numbers -/

/-- The significand of an unpacked number. -/
def unpackedSignificand : UnpackedFloat → ℕ
  | .finite _ m _ _ => m
  | _ => 0

/-- The significand of a number. -/
def significand (x : Float) : ℕ := unpackedSignificand x.toModel.unpack

/-- What a rational number is rounded to: the nearest number, that with an even significand if two
are as near, and infinity if the magnitude is too great. -/
inductive RoundsTo (q : ℚ) (x : Float) : Prop
  | finite (a : ℚ) (value : value? x = some a)
      (nearest : ∀ y b, value? y = some b → |q - a| ≤ |q - b|)
      (even : ∀ y b, value? y = some b → |q - b| = |q - a| → b = a ∨ Even (significand x))
      (small : |q| < overflow)
  | infinite (s : Sign) (unpacked : x.toModel.unpack = .infinity s)
      (great : overflow ≤ s.apply 1 * q)

section Numbers

variable {q a b : ℚ} {x y : Float} {m : ℕ} {e : ℤ}

/-- The positive number `m · 2 ^ e`, or zero. -/
def magnitude (m : ℕ) (e : ℤ) : UnpackedFloat :=
  if h : m = 0 then .zero .positive else .finite .positive m e (Nat.pos_of_ne_zero h)

theorem unpackedValue_magnitude : unpackedValue? (magnitude m e) = some ((m : ℚ) * 2 ^ e) := by
  unfold magnitude
  split
  · next h => simp [unpackedValue?, h]
  · simp [unpackedValue?, Sign.apply]

theorem unpack_magnitude (h : Canonical m e) (he : e ≤ 971) :
    (Float.Model.pack (magnitude m e)).unpack = magnitude m e := by
  unfold magnitude
  split
  · exact unpack_pack_zero
  · exact unpack_pack_of_canonical h he

theorem significand_magnitude (h : Canonical m e) (he : e ≤ 971) :
    significand ⟨Float.Model.pack (magnitude m e)⟩ = m := by
  rw [significand, unpack_magnitude h he, magnitude]
  split
  · next hm => exact hm.symm
  · rfl

/-- The magnitude of a finite number. -/
theorem exists_magnitude_of_value (h : value? x = some a) :
    ∃ m e, Canonical m e ∧ e ≤ 971 ∧ |a| = m * 2 ^ e := by
  unfold value? at h
  cases hx : x.toModel.unpack with
  | zero s =>
    rw [hx] at h
    cases h
    exact ⟨0, -1074, ⟨by decide, le_rfl, .inr rfl⟩, by decide, by simp⟩
  | finite s m e hm =>
    rw [hx] at h
    cases h
    obtain ⟨hc, he⟩ := canonical_of_unpack hx
    have hpos : (0 : ℚ) ≤ m * 2 ^ e := by positivity
    refine ⟨m, e, hc, he, ?_⟩
    cases s <;> simp [Sign.apply, abs_of_nonneg hpos]
  | infinity s =>
    rw [hx] at h
    cases h
  | notANumber =>
    rw [hx] at h
    cases h

/-- The nearest magnitude is what a positive number is rounded to. -/
theorem roundsTo_magnitude (hq : 0 ≤ q) (h : IsNearest q m e) :
    RoundsTo q ⟨Float.Model.pack (magnitude m e)⟩ := by
  have hc := h.toCanonical
  rcases le_or_gt e 971 with he | he
  · have hzero : |q - m * 2 ^ e| ≤ q := by
      have := h.nearest 0 e (by decide) hc.least
      rwa [Nat.cast_zero, zero_mul, sub_zero, abs_of_nonneg hq] at this
    -- A negative number is further away than zero.
    have hneg {b : ℚ} (hb : b < 0) : q < |q - b| := by
      rw [abs_of_pos (by linarith)]
      linarith
    refine .finite (m * 2 ^ e) ?_ (fun y b hy => ?_) (fun y b hy heq => ?_) ?_
    · rw [value?, unpack_magnitude hc he, unpackedValue_magnitude]
    · rcases lt_or_ge b 0 with hb | hb
      · exact hzero.trans (hneg hb).le
      · obtain ⟨k, i, hk, -, hbk⟩ := exists_magnitude_of_value hy
        rw [abs_of_nonneg hb] at hbk
        rw [hbk]
        exact h.nearest k i hk.lt hk.least
    · rcases lt_or_ge b 0 with hb | hb
      · exact absurd heq (hzero.trans_lt (hneg hb)).ne'
      · obtain ⟨k, i, hk, -, hbk⟩ := exists_magnitude_of_value hy
        rw [abs_of_nonneg hb] at hbk
        rw [significand_magnitude hc he, hbk]
        exact h.even k i hk.lt hk.least (hbk ▸ heq)
    · rw [abs_of_nonneg hq]
      exact h.lt_overflow he
  · have hm : m ≠ 0 := by
      rintro rfl
      exact absurd (hc.normal.resolve_left (by decide)) (by omega)
    refine .infinite .positive ?_ ?_
    · unfold magnitude
      rw [dif_neg hm]
      exact unpack_pack_of_great he
    · rw [Sign.apply, Int.cast_one, one_mul]
      exact h.overflow_le he

/-! ### Signs -/

theorem unpack_neg (x : Float) : (-x).toModel.unpack = x.toModel.unpack.neg := by
  show (Float.Model.pack x.toModel.unpack.neg).unpack = _
  cases hx : x.toModel.unpack with
  | zero s => exact unpack_pack_zero
  | infinity s => exact unpack_pack_infinity
  | notANumber => rfl
  | finite s m e hm =>
    obtain ⟨hc, he⟩ := canonical_of_unpack hx
    exact unpack_pack_of_canonical hc he

theorem value_neg (x : Float) : value? (-x) = (value? x).map (-·) := by
  rw [value?, value?, unpack_neg]
  cases x.toModel.unpack with
  | zero s => simp [UnpackedFloat.neg, unpackedValue?]
  | infinity s => rfl
  | notANumber => rfl
  | finite s m e hm => cases s <;> simp [UnpackedFloat.neg, unpackedValue?, Sign.apply]

theorem significand_neg (x : Float) : significand (-x) = significand x := by
  rw [significand, significand, unpack_neg]
  cases x.toModel.unpack <;> rfl

/-- Rounding does not hang on the sign. -/
theorem RoundsTo.neg (h : RoundsTo q x) : RoundsTo (-q) (-x) := by
  have hvalue {y : Float} {b : ℚ} (hy : value? y = some b) : value? (-y) = some (-b) := by
    rw [value_neg, hy, Option.map_some]
  have hflip (b : ℚ) : |-q - b| = |q - -b| := by
    rw [← abs_neg]
    congr 1
    ring
  cases h with
  | finite a value nearest even small =>
    refine .finite (-a) (hvalue value) (fun y b hy => ?_) (fun y b hy heq => ?_) ?_
    · rw [hflip, hflip, neg_neg]
      exact nearest (-y) (-b) (hvalue hy)
    · rw [hflip, hflip, neg_neg] at heq
      rw [significand_neg]
      exact (even (-y) (-b) (hvalue hy) heq).imp_left neg_eq_iff_eq_neg.mp
    · rwa [abs_neg]
  | infinite s unpacked great =>
    refine .infinite (-s) ?_ ?_
    · rw [unpack_neg, unpacked]
      rfl
    · cases s <;> simpa [Sign.apply] using great

/-! ### Order -/

/-- A finite number is less than what is rounded to infinity. -/
theorem abs_lt_overflow (h : value? x = some a) : |a| < overflow := by
  obtain ⟨m, e, hc, he, ha⟩ := exists_magnitude_of_value h
  have hgap := magnitude_lt_of_lt canonical_greatest canonical_next (by decide)
  have hle := magnitude_le_greatest hc he
  have htwo := two_mul_overflow
  rw [ha]
  linarith

/-- The order of numbers is turned around with their signs. -/
theorem compare_neg (f g : UnpackedFloat) : f.neg.compare g.neg = g.compare f := by
  rcases f with (_ | _) | _ | (_ | _) | ⟨_ | _, m, e, _⟩ <;>
    rcases g with (_ | _) | _ | (_ | _) | ⟨_ | _, m', e', _⟩
  any_goals rfl
  -- Two finite numbers of one sign.
  · show some ((compare e e').then (compare m m')) =
      some ((compare e' e).then (compare m' m)).swap
    rw [Ordering.swap_then, Int.compare_swap, Nat.compare_swap]
  · show some ((compare e e').then (compare m m')).swap =
      some ((compare e' e).then (compare m' m))
    rw [Ordering.swap_then, Int.compare_swap, Nat.compare_swap]

theorem neg_lt_neg_iff_lt : -x < -y ↔ y < x := by
  rw [lt_iff_compare, lt_iff_compare, unpack_neg, unpack_neg, compare_neg]

/-- What a number is rounded to is below a bound iff the number is and is not rounded to it. -/
theorem RoundsTo.lt_iff (h : RoundsTo q x) (hy : value? y = some b) :
    x < y ↔ q < b ∧ value? x ≠ some b := by
  cases h with
  | finite a value nearest even small =>
    rw [lt_iff_of_value value hy, value, ne_eq, Option.some.injEq]
    have hnear := nearest y b hy
    constructor
    · intro hlt
      refine ⟨?_, hlt.ne⟩
      by_contra hle
      rw [abs_of_pos (by linarith), abs_of_nonneg (by linarith)] at hnear
      linarith
    · rintro ⟨hlt, hne⟩
      by_contra hle
      have hgt : b < a := lt_of_le_of_ne (not_lt.mp hle) (Ne.symm hne)
      rw [abs_of_neg (by linarith), abs_of_neg (by linarith)] at hnear
      linarith
  | infinite s unpacked great =>
    obtain ⟨hb₁, hb₂⟩ := abs_lt.mp (abs_lt_overflow hy)
    have hne : value? x ≠ some b := by
      rw [value?, unpacked]
      exact nofun
    rw [lt_iff_compare, unpacked]
    unfold value? at hy
    cases s with
    | positive =>
      rw [Sign.apply, Int.cast_one, one_mul] at great
      refine iff_of_false (fun hlt => ?_) fun h => by linarith [h.1]
      cases hu : y.toModel.unpack <;> rw [hu] at hlt hy <;> cases hy <;> cases hlt
    | negative =>
      rw [Sign.apply, Int.cast_neg, Int.cast_one, neg_mul, one_mul] at great
      refine iff_of_true ?_ ⟨by linarith, hne⟩
      cases hu : y.toModel.unpack <;> rw [hu] at hy <;> first | rfl | cases hy

theorem RoundsTo.gt_iff (h : RoundsTo q x) (hy : value? y = some b) :
    y < x ↔ b < q ∧ value? x ≠ some b := by
  have hy' : value? (-y) = some (-b) := by rw [value_neg, hy, Option.map_some]
  have hx : value? (-x) = some (-b) ↔ value? x = some b := by
    rw [value_neg, Option.map_eq_some_iff]
    simp
  rw [← neg_lt_neg_iff_lt, h.neg.lt_iff hy', neg_lt_neg_iff, ne_eq, hx]

end Numbers

end Formwork.Numeric
