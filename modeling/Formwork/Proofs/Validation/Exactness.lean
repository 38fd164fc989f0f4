import Formwork.Property.Value
import Formwork.Proofs.Numeric.Decimal
import Formwork.Proofs.Numeric.Neighbours
import Formwork.Proofs.Validation.Ranges

/-!
# Bounds of exact numbers

Integers and decimals of any size are compared with bounds as numbers of 64 bits.

- **Numbers** (`Scalar.exists_number`): an integer or a decimal is rounded to the nearest number of
  64 bits.
- **Checks** (`Check.range_exact`): the check tells on which side of a bound that is an integer the
  exact number is, unless it is rounded to the bound. This is so only very close to the bound, and
  for an integer only behind `2 ^ 53` (`Check.not_comparesExactly`).
-/

namespace Formwork

open Numeric

/-- The exact value of an integer or a decimal. -/
def Scalar.rational? : Scalar → Option ℚ
  | .integer _ n => some n
  | .bigInteger n => some n
  | .decimal d => some d.value
  | _ => none

/-- An exact number is rounded to the nearest number of 64 bits. -/
theorem Scalar.exists_number {s : Scalar} {q : ℚ} (h : s.rational? = some q) :
    ∃ x, (Value.scalar s).number? = some x ∧ RoundsTo q x := by
  cases s with
  | integer k n =>
    cases h
    exact ⟨floatOfInt n, rfl, roundsTo_floatOfInt n⟩
  | bigInteger n =>
    cases h
    exact ⟨floatOfInt n, rfl, roundsTo_floatOfInt n⟩
  | decimal d =>
    cases h
    exact ⟨d.toFloat, rfl, d.roundsTo_toFloat⟩
  | _ => cases h

namespace Check

/-- A bound is an integer of 53 binary digits. -/
structure IsBound (y : Float) (b : ℤ) : Prop where
  value : value? y = some (b : ℚ)
  small : |b| ≤ 2 ^ 53

/-- The check tells on which side of its bounds an exact number is. -/
def ComparesExactly (s : Scalar) (q : ℚ) (least greatest : Option Float) : Prop :=
  ∃ x, (Value.scalar s).number? = some x ∧
    ((∃ e ∈ range x least greatest, e.key? = some "validation.minvalue.valueBelowMinimum") ↔
      ∃ y ∈ least, ∃ b, IsBound y b ∧ q < b) ∧
    ((∃ e ∈ range x least greatest, e.key? = some "validation.maxvalue.valueAboveMaximum") ↔
      (∀ y ∈ least, ∀ b, IsBound y b → b ≤ q) ∧ ∃ y ∈ greatest, ∃ b, IsBound y b ∧ b < q) ∧
    ∀ e ∈ range x least greatest, e.key? = some "validation.minvalue.valueBelowMinimum" ∨
      e.key? = some "validation.maxvalue.valueAboveMaximum"

variable {least greatest : Option Float} {q : ℚ}

/-- A number is one bound only. -/
theorem IsBound.exists_iff {p : ℤ → Prop} {y : Float} {b : ℤ} (hb : IsBound y b) :
    (∃ b', IsBound y b' ∧ p b') ↔ p b := by
  constructor
  · rintro ⟨b', hb', h⟩
    have hsame : (b' : ℚ) = b := Option.some.inj (hb'.value.symm.trans hb.value)
    rwa [← Int.cast_injective hsame]
  · exact fun h => ⟨b, hb, h⟩

/-- What is rounded to a number is out of a bound iff the number is and is not rounded to it. -/
theorem lt_bound_iff {x y : Float} (hx : RoundsTo q x) (hy : ∃ b, IsBound y b) :
    x < y ↔ ∃ b, IsBound y b ∧ q < b ∧ value? x ≠ some (b : ℚ) := by
  obtain ⟨b, hb⟩ := hy
  rw [hx.lt_iff hb.value, hb.exists_iff]

theorem bound_lt_iff {x y : Float} (hx : RoundsTo q x) (hy : ∃ b, IsBound y b) :
    y < x ↔ ∃ b, IsBound y b ∧ b < q ∧ value? x ≠ some (b : ℚ) := by
  obtain ⟨b, hb⟩ := hy
  rw [hx.gt_iff hb.value, hb.exists_iff]

/-- An exact number is compared with integer bounds as the nearest number of 64 bits: it is reported
iff it is out of a bound and not rounded to it. What is rounded to a bound is very close to it, and
an integer that is rounded to another one is greater than `2 ^ 53`. -/
theorem range_exact {s : Scalar} (hs : s.rational? = some q)
    (hl : ∀ y ∈ least, ∃ b, IsBound y b) (hg : ∀ y ∈ greatest, ∃ b, IsBound y b) :
    ∃ x, (Value.scalar s).number? = some x ∧ RoundsTo q x ∧
      (∀ e, range x least greatest = some e ↔
        (∃ y ∈ least, (∃ b, IsBound y b ∧ q < b ∧ value? x ≠ some (b : ℚ)) ∧
          e = (FieldError.constraint "validation.minvalue.valueBelowMinimum").addParameter
            (floatText y)) ∨
        (∀ y ∈ least, ¬ ∃ b, IsBound y b ∧ q < b ∧ value? x ≠ some (b : ℚ)) ∧
          ∃ y ∈ greatest, (∃ b, IsBound y b ∧ b < q ∧ value? x ≠ some (b : ℚ)) ∧
            e = (FieldError.constraint "validation.maxvalue.valueAboveMaximum").addParameter
              (floatText y)) ∧
      ∀ b : ℤ, |b| ≤ 2 ^ 53 → value? x = some (b : ℚ) →
        |q - b| ≤ max |(b : ℚ)| (2 ^ (-1022 : ℤ)) / 2 ^ 53 ∧
        ∀ n : ℤ, q = n → n = b ∨ b = 2 ^ 53 ∧ n = 2 ^ 53 + 1 ∨ b = -2 ^ 53 ∧ n = -(2 ^ 53 + 1) := by
  obtain ⟨x, hx, hround⟩ := Scalar.exists_number hs
  refine ⟨x, hx, hround, fun e => ?_, fun b hb hxb => ⟨?_, ?_⟩⟩
  · have hbelow (y : Float) (hy : y ∈ least) := lt_bound_iff hround (hl y hy)
    have habove (y : Float) (hy : y ∈ greatest) := bound_lt_iff hround (hg y hy)
    rw [range_eq_some_iff]
    refine or_congr ?_ (and_congr ?_ ?_)
    · exact exists_congr fun y => and_congr_right fun hy => and_congr_left' (hbelow y hy)
    · exact forall₂_congr fun y hy => not_congr (hbelow y hy)
    · exact exists_congr fun y => and_congr_right fun hy => and_congr_left' (habove y hy)
  · exact hround.abs_sub_le hxb (by exact_mod_cast hb)
  · rintro n rfl
    exact hround.eq_or_of_int hxb hb

theorem isBound_of_isInteger {y : Float} {n : ℕ} (h : isInteger n y.toModel.unpack = true)
    (hn : n ≤ 2 ^ 53) : IsBound y n := by
  obtain ⟨m, e, hm, hy, hvalue⟩ := exists_of_isInteger h
  refine ⟨?_, by rw [Nat.abs_cast]; exact_mod_cast hn⟩
  rw [value?, hy, unpackedValue?, Float.Model.UnpackedFloat.Sign.apply, Int.cast_natCast,
    Int.cast_natCast, hvalue]

theorem isBound_five : IsBound 5 5 := isBound_of_isInteger (by decide +kernel) (by decide)

theorem range_exact_decimal :
    Scalar.rational? (.decimal ⟨499, 2⟩) = some (499 / 100) ∧ (∃ b, IsBound 5 b) ∧
      ∃ x, (Value.scalar (.decimal ⟨499, 2⟩)).number? = some x ∧ range x (some 5) none =
        some ((FieldError.constraint "validation.minvalue.valueBelowMinimum").addParameter
          (floatText 5)) := by
  have hs : Scalar.rational? (.decimal ⟨499, 2⟩) = some (499 / 100) := by
    simp only [Scalar.rational?, Decimal.value]
    norm_num
  refine ⟨hs, ⟨5, isBound_five⟩, ?_⟩
  obtain ⟨x, hx, -, hrange, hclose⟩ := @range_exact (some 5) none _ _ hs
    (fun y hy => Option.mem_some.mp hy ▸ ⟨5, isBound_five⟩)
    (fun y hy => absurd hy (Option.not_mem_none y))
  -- The decimal is not close enough to the bound to be rounded to it.
  have hfar : value? x ≠ some ((5 : ℤ) : ℚ) := by
    intro h
    have hle := (hclose 5 (by decide) h).1
    have hmax : max |((5 : ℤ) : ℚ)| (2 ^ (-1022 : ℤ)) = 5 := by
      rw [max_eq_left]
      · norm_num
      · exact (zpow_le_one_of_nonpos₀ one_le_two (by decide)).trans (by norm_num)
    rw [hmax] at hle
    norm_num at hle
  exact ⟨x, hx, (hrange _).mpr (.inl ⟨5, rfl, ⟨5, isBound_five, by norm_num, hfar⟩, rfl⟩)⟩

/-- The first integer that is not exact is rounded to a bound below it, and so is a decimal that is
close enough to a bound above it. Neither is reported. -/
theorem not_comparesExactly :
    (Scalar.rational? (.integer .int64 9007199254740993) = some 9007199254740993 ∧
      IsBound 9007199254740992 9007199254740992 ∧
      ¬ ComparesExactly (.integer .int64 9007199254740993) 9007199254740993
        none (some 9007199254740992)) ∧
    Scalar.rational? (.decimal ⟨499999999999999999999, 20⟩) = some (5 - 1 / 10 ^ 20) ∧
      IsBound 5 5 ∧
      ¬ ComparesExactly (.decimal ⟨499999999999999999999, 20⟩) (5 - 1 / 10 ^ 20) (some 5) none := by
  have hlast : IsBound 9007199254740992 9007199254740992 :=
    isBound_of_isInteger (by decide +kernel) (by decide)
  refine ⟨⟨by simp [Scalar.rational?], hlast, ?_⟩, ?_, isBound_five, ?_⟩
  · rintro ⟨x, hx, -, habove, -⟩
    obtain rfl : floatOfInt 9007199254740993 = x := Option.some.inj hx
    have hnone : range (floatOfInt 9007199254740993) none (some 9007199254740992) = none :=
      range_eq_none_iff.mpr ⟨fun y hy => absurd hy (Option.not_mem_none y),
        fun y hy => Option.mem_some.mp hy ▸ by decide +kernel⟩
    obtain ⟨e, he, -⟩ := habove.mpr ⟨fun y hy => absurd hy (Option.not_mem_none y),
      _, rfl, _, hlast, by norm_num⟩
    rw [hnone] at he
    cases he
  · simp only [Scalar.rational?, Decimal.value]
    norm_num
  · rintro ⟨x, hx, hbelow, -⟩
    obtain rfl : Decimal.toFloat ⟨499999999999999999999, 20⟩ = x := Option.some.inj hx
    have hnone : range (Decimal.toFloat ⟨499999999999999999999, 20⟩) (some 5) none = none :=
      range_eq_none_iff.mpr ⟨fun y hy => Option.mem_some.mp hy ▸ by decide +kernel,
        fun y hy => absurd hy (Option.not_mem_none y)⟩
    obtain ⟨e, he, -⟩ := hbelow.mpr ⟨_, rfl, _, isBound_five, by norm_num⟩
    rw [hnone] at he
    cases he

end Check

end Formwork
