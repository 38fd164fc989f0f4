import Mathlib
import Formwork.Numeric.Binary

/-!
# Numbers of 64 bits

- **Significands** (`Canonical`): a finite number is `m · 2 ^ e` with a significand of 53 bits, all
  of them used unless the exponent is the least one (`canonical_of_unpack`,
  `unpack_pack_of_canonical`).
- **Values** (`value?`): what a finite number stands for. The numbers are ordered as their values
  are (`lt_iff_of_value`).
-/

namespace Formwork.Numeric

open Float.Model Float.Model.UnpackedFloat

/-- The magnitude `m · 2 ^ e` is written as numbers of 64 bits are. -/
structure Canonical (m : ℕ) (e : ℤ) : Prop where
  lt : m < 2 ^ 53
  least : -1074 ≤ e
  normal : 2 ^ 52 ≤ m ∨ e = -1074

/-! ## Bits -/

section Bits

variable {s : Sign} {m : ℕ} {e : ℤ} {hm : 0 < m}

theorem toNat_append_one (b : BitVec 52) : (1#1 ++ b).toNat = 2 ^ 52 + b.toNat := by
  rw [BitVec.toNat_append, ← Nat.shiftLeft_add_eq_or_of_lt b.isLt]
  rfl

/-- The significand and the exponent of the bits of a number. -/
theorem canonical_of_unpack {x : Float.Model} (h : x.unpack = .finite s m e hm) :
    Canonical m e ∧ e ≤ 971 := by
  have hmantissa := (@unpackMantissa .binary64 x.toBits.toBitVec).isLt
  have hexponent := (@unpackExponent .binary64 x.toBits.toBitVec).isLt
  have hbias : (Format.binary64.exponentBias : ℤ) = 1023 := rfl
  unfold Float.Model.unpack UnpackedFloat.unpack at h
  dsimp only at h hmantissa hexponent
  split at h
  · split at h <;> cases h
  · next hfinite =>
    split at h
    · split at h
      · cases h
      · next hzero _ =>
        obtain ⟨-, rfl, rfl⟩ := UnpackedFloat.finite.inj h
        rw [hzero, hbias]
        exact ⟨⟨by omega, by simp, .inr (by simp)⟩, by simp⟩
    · next hzero =>
      obtain ⟨-, rfl, rfl⟩ := UnpackedFloat.finite.inj h
      have hpos : (@unpackExponent .binary64 x.toBits.toBitVec).toNat ≠ 0 :=
        fun he => hzero (BitVec.eq_of_toNat_eq he)
      have hsmall : (@unpackExponent .binary64 x.toBits.toBitVec).toNat ≠ 2047 :=
        fun he => hfinite (BitVec.eq_of_toNat_eq he)
      rw [toNat_append_one, hbias]
      exact ⟨⟨by omega, by omega, .inl (by omega)⟩, by omega⟩

theorem finite_congr {m' : ℕ} {e' : ℤ} {hm' : 0 < m'} (h : m = m') (he : e = e') :
    UnpackedFloat.finite s m e hm = .finite s m' e' hm' := by
  subst h he
  rfl

theorem unpack_normal {exponent : BitVec 11} {mantissa : BitVec 52} (h0 : exponent ≠ 0#11)
    (h1 : exponent ≠ -1#11) :
    UnpackedFloat.unpack .binary64 (packComponents .binary64 s exponent mantissa) =
      .finite s (2 ^ 52 + mantissa.toNat) (exponent.toNat - 1075)
        (Nat.add_pos_left (Nat.two_pow_pos 52) _) := by
  unfold UnpackedFloat.unpack
  simp only [unpackExponent_packComponents, unpackMantissa_packComponents,
    unpackSign_packComponents, Sign.ofBitVec_toBitVec, if_neg h0, if_neg h1, toNat_append_one]
  rfl

theorem unpack_subnormal {mantissa : BitVec 52} (h : 0 < mantissa.toNat) :
    UnpackedFloat.unpack .binary64 (packComponents .binary64 s 0#11 mantissa) =
      .finite s mantissa.toNat (-1074) h := by
  have h0 : mantissa ≠ 0#52 := fun h0 => h.ne' (congrArg BitVec.toNat h0)
  unfold UnpackedFloat.unpack
  simp only [unpackExponent_packComponents, unpackMantissa_packComponents,
    unpackSign_packComponents, Sign.ofBitVec_toBitVec, dif_neg h0]
  rfl

theorem pack_of_canonical (hm : 0 < m) (h : Canonical m e) (he : e ≤ 971) :
    UnpackedFloat.pack .binary64 (.finite s m e hm) = packComponents .binary64 s
      (if 2 ^ 52 ≤ m then BitVec.ofNat 11 (e + 1075).toNat else 0#11) (BitVec.ofNat 52 m) := by
  have hleast := h.least
  have hsmall : ¬ 2 ^ 11 ≤ (e + (1023 : ℕ) + (52 : ℕ)).toNat + 1 := by omega
  have hexponent : (e + (1023 : ℕ) + (52 : ℕ)).toNat = (e + 1075).toNat := by omega
  have hlog : m.log2 + 1 = 53 ↔ 2 ^ 52 ≤ m := by
    rw [Nat.add_right_cancel_iff, Nat.log2_eq_iff hm.ne']
    exact ⟨And.left, fun h52 => ⟨h52, h.lt⟩⟩
  refine (if_neg hsmall).trans ?_
  by_cases h52 : 2 ^ 52 ≤ m
  · rw [if_pos h52, ← hexponent]
    exact if_pos (hlog.mpr h52)
  · rw [if_neg h52]
    exact if_neg (mt hlog.mp h52)

/-- A canonical magnitude that is not too great is read from its bits. -/
theorem unpack_pack_of_canonical (h : Canonical m e) (he : e ≤ 971) :
    (Float.Model.pack (.finite s m e hm)).unpack = .finite s m e hm := by
  refine (congrArg (UnpackedFloat.unpack .binary64) (pack_of_canonical hm h he)).trans ?_
  obtain ⟨hlt, hleast, hnormal⟩ := h
  split
  · next h52 =>
    have hexponent : (BitVec.ofNat 11 (e + 1075).toNat).toNat = (e + 1075).toNat := by
      rw [BitVec.toNat_ofNat, Nat.mod_eq_of_lt (by omega)]
    have hmantissa : (BitVec.ofNat 52 m).toNat = m - 2 ^ 52 := by
      rw [BitVec.toNat_ofNat]
      omega
    have h0 : BitVec.ofNat 11 (e + 1075).toNat ≠ 0#11 := by
      intro h0
      rw [h0, BitVec.toNat_zero] at hexponent
      omega
    have h1 : BitVec.ofNat 11 (e + 1075).toNat ≠ -1#11 := by
      intro h1
      rw [h1] at hexponent
      change 2047 = (e + 1075).toNat at hexponent
      omega
    exact (unpack_normal h0 h1).trans (finite_congr (by omega) (by omega))
  · next h52 =>
    have hmantissa : (BitVec.ofNat 52 m).toNat = m := by
      rw [BitVec.toNat_ofNat, Nat.mod_eq_of_lt (by omega)]
    exact (unpack_subnormal (hmantissa.symm ▸ hm)).trans
      (finite_congr hmantissa (hnormal.resolve_left h52).symm)

theorem unpack_pack_infinity : (Float.Model.pack (.infinity s)).unpack = .infinity s := by
  cases s <;> rfl

theorem unpack_pack_zero : (Float.Model.pack (.zero s)).unpack = .zero s := by
  cases s <;> rfl

/-- A greater magnitude is infinite. -/
theorem unpack_pack_of_great (he : 971 < e) :
    (Float.Model.pack (.finite s m e hm)).unpack = .infinity s := by
  have hgreat : 2 ^ 11 ≤ (e + (1023 : ℕ) + (52 : ℕ)).toNat + 1 := by omega
  have hpack : UnpackedFloat.pack .binary64 (.finite s m e hm) = packedInfinity .binary64 s :=
    if_pos hgreat
  exact (congrArg (UnpackedFloat.unpack .binary64) hpack).trans unpack_pack_infinity

end Bits

/-! ## Values -/

/-- What an unpacked number stands for, if it is finite. -/
def unpackedValue? : UnpackedFloat → Option ℚ
  | .zero _ => some 0
  | .finite s m e _ => some (s.apply m * 2 ^ e)
  | _ => none

/-- The value of a finite number. -/
def value? (x : Float) : Option ℚ := unpackedValue? x.toModel.unpack

section Order

variable {m₁ m₂ : ℕ} {e₁ e₂ : ℤ}

/-- What has 53 binary digits is below what has as many of them further to the left. -/
theorem magnitude_lt_pow (hm : m₁ < 2 ^ 53) (he : e₁ < e₂) :
    (m₁ : ℚ) * 2 ^ e₁ < 2 ^ 52 * 2 ^ e₂ := by
  have hm' : (m₁ : ℚ) < 2 ^ 53 := by exact_mod_cast hm
  calc (m₁ : ℚ) * 2 ^ e₁ < 2 ^ 53 * 2 ^ e₁ := by gcongr
    _ = 2 ^ 52 * 2 ^ (e₁ + 1) := by rw [zpow_add_one₀ two_ne_zero]; ring
    _ ≤ 2 ^ 52 * 2 ^ e₂ :=
      mul_le_mul_of_nonneg_left (zpow_le_zpow_right₀ one_le_two (by omega)) (by norm_num)

theorem magnitude_lt_of_lt (h₁ : Canonical m₁ e₁) (h₂ : Canonical m₂ e₂) (he : e₁ < e₂) :
    (m₁ : ℚ) * 2 ^ e₁ < m₂ * 2 ^ e₂ := by
  have hleast := h₁.least
  have hm₂ : (2 : ℚ) ^ 52 ≤ m₂ := by exact_mod_cast h₂.normal.resolve_right (by omega)
  exact (magnitude_lt_pow h₁.lt he).trans_le (by gcongr)

theorem magnitude_lt_iff (h₁ : Canonical m₁ e₁) (h₂ : Canonical m₂ e₂) :
    (m₁ : ℚ) * 2 ^ e₁ < m₂ * 2 ^ e₂ ↔ ((compare e₁ e₂).then (compare m₁ m₂)) = .lt := by
  rw [Ordering.then_eq_lt, compare_lt_iff_lt, compare_eq_iff_eq, compare_lt_iff_lt]
  rcases lt_trichotomy e₁ e₂ with he | rfl | he
  · exact iff_of_true (magnitude_lt_of_lt h₁ h₂ he) (.inl he)
  · have hpow : (0 : ℚ) < 2 ^ e₁ := by positivity
    simp [mul_lt_mul_iff_left₀ hpow]
  · refine iff_of_false (magnitude_lt_of_lt h₂ h₁ he).le.not_gt ?_
    omega

/-- A magnitude has one canonical significand. -/
theorem eq_of_magnitude_eq (h₁ : Canonical m₁ e₁) (h₂ : Canonical m₂ e₂)
    (h : (m₁ : ℚ) * 2 ^ e₁ = m₂ * 2 ^ e₂) : m₁ = m₂ ∧ e₁ = e₂ := by
  rcases lt_trichotomy e₁ e₂ with he | rfl | he
  · exact absurd h (magnitude_lt_of_lt h₁ h₂ he).ne
  · have hpow : (2 : ℚ) ^ e₁ ≠ 0 := by positivity
    exact ⟨by exact_mod_cast mul_right_cancel₀ hpow h, rfl⟩
  · exact absurd h (magnitude_lt_of_lt h₂ h₁ he).ne'

theorem compare_eq_lt_iff {f g : UnpackedFloat} {a b : ℚ} (hf : unpackedValue? f = some a)
    (hg : unpackedValue? g = some b) (hfc : ∀ s m e h, f = .finite s m e h → Canonical m e)
    (hgc : ∀ s m e h, g = .finite s m e h → Canonical m e) :
    f.compare g = some .lt ↔ a < b := by
  have hpos (m : ℕ) (e : ℤ) (hm : 0 < m) : (0 : ℚ) < m * 2 ^ e := by positivity
  match f, g with
  | .zero _, .zero _ =>
    cases hf
    cases hg
    simp [UnpackedFloat.compare]
  | .zero _, .finite s m e hm =>
    cases hf
    cases hg
    have := hpos m e hm
    cases s <;> simp [UnpackedFloat.compare, Sign.apply, this, this.le]
  | .finite s m e hm, .zero _ =>
    cases hf
    cases hg
    have := hpos m e hm
    cases s <;> simp [UnpackedFloat.compare, Sign.apply, this, this.le]
  | .finite s₁ m₁ e₁ hm₁, .finite s₂ m₂ e₂ hm₂ =>
    cases hf
    cases hg
    have h₁ := hpos m₁ e₁ hm₁
    have h₂ := hpos m₂ e₂ hm₂
    have hlt := magnitude_lt_iff (hfc _ _ _ _ rfl) (hgc _ _ _ _ rfl)
    have hgt := magnitude_lt_iff (hgc _ _ _ _ rfl) (hfc _ _ _ _ rfl)
    cases s₁ <;> cases s₂ <;>
      simp only [UnpackedFloat.compare, Sign.apply, Option.some.injEq, Int.cast_neg,
        Int.cast_natCast, neg_mul]
    · rw [Ordering.swap_then, Int.compare_swap, Nat.compare_swap, ← hgt, neg_lt_neg_iff]
    · exact iff_of_true trivial (by linarith)
    · exact iff_of_false (by simp) (by linarith)
    · exact hlt.symm

theorem lt_iff_compare {x y : Float} :
    x < y ↔ x.toModel.unpack.compare y.toModel.unpack = some .lt := by
  show decide (x.toModel < y.toModel) = true ↔ _
  rw [decide_eq_true_iff]
  exact beq_iff_eq

/-- Finite numbers are ordered as their values are. -/
theorem lt_iff_of_value {x y : Float} {a b : ℚ} (hx : value? x = some a) (hy : value? y = some b) :
    x < y ↔ a < b := by
  rw [lt_iff_compare]
  exact compare_eq_lt_iff hx hy (fun _ _ _ _ h => (canonical_of_unpack h).1)
    fun _ _ _ _ h => (canonical_of_unpack h).1

end Order

end Formwork.Numeric
