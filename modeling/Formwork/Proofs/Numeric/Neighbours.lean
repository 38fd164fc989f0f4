import Formwork.Proofs.Numeric.Nearest

/-!
# Neighbours of numbers of 64 bits

- **Exact values** (`exists_value_of_le`): multiples of powers of two with 53 binary digits are
  values, so the integers up to `2 ^ 53` are (`exists_value_int`), and a value is rounded to itself
  (`RoundsTo.value_eq`).
- **Distance** (`RoundsTo.abs_sub_le`): what is rounded to a value is half the distance to the next
  value away at most.
- **Integers** (`RoundsTo.eq_or_of_int`): an integer that is rounded to another one is greater than
  `2 ^ 53`.
-/

namespace Formwork.Numeric

variable {q a b : ℚ} {x y : Float} {m : ℕ} {e : ℤ}

/-! ## Exact values -/

/-- A magnitude of 53 digits has a canonical significand. -/
theorem exists_canonical (hm : m < 2 ^ 53) (he : -1074 ≤ e) :
    ∃ k i, Canonical k i ∧ i ≤ e ∧ (k : ℚ) * 2 ^ i = m * 2 ^ e := by
  obtain ⟨d, rfl⟩ : ∃ d : ℕ, e = -1074 + d := ⟨(e + 1074).toNat, by omega⟩
  induction d generalizing m with
  | zero => exact ⟨m, -1074, ⟨hm, le_rfl, .inr rfl⟩, by omega, by simp⟩
  | succ d ih =>
    rcases le_or_gt (2 ^ 52) m with h52 | h52
    · exact ⟨m, _, ⟨hm, he, .inl h52⟩, le_rfl, rfl⟩
    · obtain ⟨k, i, hc, hi, hvalue⟩ := ih (m := 2 * m) (by omega) (by omega)
      refine ⟨k, i, hc, by omega, ?_⟩
      rw [hvalue, Nat.cast_succ, ← add_assoc, zpow_add_one₀ two_ne_zero]
      push_cast
      ring

theorem exists_value_of_lt (hb : |b| = m * 2 ^ e) (hm : m < 2 ^ 53) (he : -1074 ≤ e)
    (he' : e ≤ 971) : ∃ y, value? y = some b := by
  obtain ⟨k, i, hc, hi, hvalue⟩ := exists_canonical hm he
  rw [← hvalue] at hb
  have hy : value? ⟨Float.Model.pack (magnitude k i)⟩ = some |b| := by
    rw [value?, unpack_magnitude hc (hi.trans he'), unpackedValue_magnitude, hb]
  rcases abs_choice b with h | h
  · exact ⟨_, h ▸ hy⟩
  · refine ⟨-⟨Float.Model.pack (magnitude k i)⟩, ?_⟩
    rw [value_neg, hy, h, Option.map_some, neg_neg]

/-- Multiples of powers of two with 53 binary digits are values. -/
theorem exists_value_of_le {n : ℤ} (hn : n.natAbs ≤ 2 ^ 53) (he : -1074 ≤ e) (he' : e ≤ 970) :
    ∃ y, value? y = some ((n : ℚ) * 2 ^ e) := by
  have habs : |(n : ℚ) * 2 ^ e| = n.natAbs * 2 ^ e := by
    rw [abs_mul, abs_of_pos (by positivity : (0 : ℚ) < 2 ^ e), Nat.cast_natAbs, Int.cast_abs]
  rcases lt_or_ge n.natAbs (2 ^ 53) with hlt | hge
  · exact exists_value_of_lt habs hlt he (by omega)
  · have hmax : n.natAbs = 2 ^ 53 := by omega
    refine exists_value_of_lt (m := 2 ^ 52) (e := e + 1) ?_ (by decide) (by omega) (by omega)
    rw [habs, hmax, zpow_add_one₀ two_ne_zero]
    push_cast
    ring

theorem exists_value_int {n : ℤ} (hn : n.natAbs ≤ 2 ^ 53) : ∃ y, value? y = some (n : ℚ) := by
  simpa using exists_value_of_le (e := 0) hn (by decide) (by decide)

/-- A value is rounded to itself. -/
theorem RoundsTo.value_eq (h : RoundsTo q x) (hy : value? y = some q) : value? x = some q := by
  cases h with
  | finite a value nearest even small =>
    have := nearest y q hy
    rw [sub_self, abs_zero, abs_nonpos_iff, sub_eq_zero] at this
    rw [value, this]
  | infinite s unpacked great =>
    have hlt := abs_lt.mp (abs_lt_overflow hy)
    cases s <;> simp [Float.Model.UnpackedFloat.Sign.apply] at great <;> linarith

/-! ## Distances -/

theorem RoundsTo.nearest (h : RoundsTo q x) (hx : value? x = some a) (hy : value? y = some b) :
    |q - a| ≤ |q - b| := by
  cases h with
  | finite a' value nearest even small =>
    obtain rfl : a' = a := Option.some.inj (value.symm.trans hx)
    exact nearest y b hy
  | infinite s unpacked great =>
    rw [value?, unpacked] at hx
    cases hx

/-- What is rounded to a value of a moderate size is half the distance to the next value away at
most. -/
theorem RoundsTo.abs_sub_le (h : RoundsTo q x) (hx : value? x = some a) (ha : |a| ≤ 2 ^ 53) :
    |q - a| ≤ max |a| (2 ^ (-1022 : ℤ)) / 2 ^ 53 := by
  obtain ⟨m, e, hc, -, hm⟩ := exists_magnitude_of_value hx
  have hpow : (0 : ℚ) < 2 ^ e := by positivity
  have he : e ≤ 970 := by
    by_contra hgt
    have hm52 : (2 : ℚ) ^ 52 ≤ m := by exact_mod_cast hc.normal.resolve_right (by omega)
    have hlt : ((1 : ℕ) : ℚ) * 2 ^ (53 : ℤ) < 2 ^ 52 * 2 ^ e :=
      magnitude_lt_pow (by decide) (by omega)
    have hge := mul_le_mul_of_nonneg_right hm52 hpow.le
    rw [Nat.cast_one, one_mul] at hlt
    rw [hm] at ha
    exact absurd (hlt.trans_le (hge.trans ha)) (lt_irrefl _)
  obtain ⟨k, hk, hka⟩ : ∃ k : ℤ, k.natAbs = m ∧ a = k * 2 ^ e := by
    rcases abs_choice a with h | h
    · exact ⟨m, Int.natAbs_natCast m, by rw [← h, hm, Int.cast_natCast]⟩
    · exact ⟨-m, by simp, by rw [← neg_neg a, ← h, hm]; push_cast; ring⟩
  -- The values one step up and one step down are not nearer.
  have hlt := hc.lt
  obtain ⟨y, hy⟩ := exists_value_of_le (n := k + 1) (by omega) hc.least he
  obtain ⟨z, hz⟩ := exists_value_of_le (n := k - 1) (by omega) hc.least he
  have hup := h.nearest hx hy
  have hdown := h.nearest hx hz
  have hhalf : |q - a| ≤ 2 ^ e / 2 := by
    rw [Int.cast_add, Int.cast_one, add_mul, one_mul, ← hka] at hup
    rw [Int.cast_sub, Int.cast_one, sub_mul, one_mul, ← hka] at hdown
    rcases le_total a q with hle | hle
    · rw [abs_of_nonneg (sub_nonneg.mpr hle)] at hup ⊢
      rcases abs_cases (q - (a + 2 ^ e)) with ⟨habs, -⟩ | ⟨habs, -⟩ <;> linarith
    · rw [abs_of_nonpos (sub_nonpos.mpr hle)] at hdown ⊢
      rcases abs_cases (q - (a - 2 ^ e)) with ⟨habs, -⟩ | ⟨habs, -⟩ <;> linarith
  rw [le_div_iff₀ (by positivity)]
  refine (mul_le_mul_of_nonneg_right hhalf (by positivity)).trans ?_
  rcases hc.normal with h52 | rfl
  · have hm52 : (2 : ℚ) ^ 52 ≤ m := by exact_mod_cast h52
    calc (2 : ℚ) ^ e / 2 * 2 ^ 53 = (2 : ℚ) ^ 52 * 2 ^ e := by ring
      _ ≤ (m : ℚ) * 2 ^ e := mul_le_mul_of_nonneg_right hm52 hpow.le
      _ ≤ max |a| (2 ^ (-1022 : ℤ)) := hm ▸ le_max_left _ _
  · calc (2 : ℚ) ^ (-1074 : ℤ) / 2 * 2 ^ 53 = (2 : ℚ) ^ (-1074 : ℤ) * 2 ^ 52 := by ring
      _ = 2 ^ (-1022 : ℤ) := by
        rw [← zpow_natCast, ← zpow_add₀ two_ne_zero]
        rfl
      _ ≤ max |a| (2 ^ (-1022 : ℤ)) := le_max_right _ _

/-! ## Integers -/

/-- An integer that is rounded to a lesser one is the first one that is not exact. -/
theorem RoundsTo.eq_or_of_int {n b : ℤ} (h : RoundsTo n x) (hx : value? x = some (b : ℚ))
    (hb : |b| ≤ 2 ^ 53) :
    n = b ∨ b = 2 ^ 53 ∧ n = 2 ^ 53 + 1 ∨ b = -2 ^ 53 ∧ n = -(2 ^ 53 + 1) := by
  rw [Int.abs_eq_natAbs] at hb
  have hnear {c : ℤ} (hc : ∃ y, value? y = some (c : ℚ)) : (n - b).natAbs ≤ (n - c).natAbs := by
    obtain ⟨y, hy⟩ := hc
    have hle : |n - b| ≤ |n - c| := by exact_mod_cast h.nearest hx hy
    rwa [Int.abs_eq_natAbs, Int.abs_eq_natAbs, Int.ofNat_le] at hle
  have hint {c : ℤ} (hc : c.natAbs ≤ 2 ^ 53) : (n - b).natAbs ≤ (n - c).natAbs :=
    hnear (exists_value_int hc)
  have heven {c : ℤ} (hc : c.natAbs ≤ 2 ^ 53) : (n - b).natAbs ≤ (n - c * 2).natAbs := by
    refine hnear ?_
    obtain ⟨y, hy⟩ := exists_value_of_le (e := 1) hc (by decide) (by decide)
    exact ⟨y, by rw [hy, zpow_one]; push_cast; rfl⟩
  rcases le_or_gt n.natAbs (2 ^ 53) with hle | hgt
  · have := hint hle
    omega
  · -- The integers next to the first one that is not exact are values.
    have h₁ := hint (c := 2 ^ 53) (by decide)
    have h₂ := hint (c := -2 ^ 53) (by decide)
    have h₃ := heven (c := 2 ^ 52 + 1) (by decide)
    have h₄ := heven (c := -(2 ^ 52 + 1)) (by decide)
    omega

end Formwork.Numeric
