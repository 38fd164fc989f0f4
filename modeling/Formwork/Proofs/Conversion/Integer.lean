import Formwork.Proofs.Locale.Grammar

/-!
# Integers of fixed width

The converters to integers of fixed width read 128 bits where the one to integers of any size reads
all digits. What the reader of numerals lets through is always a `Numeral`, so digits that 128 bits
cannot hold are digits that no width holds: the converter of a width is the one of any size with the
bounds of the width checked afterwards (`integerConverter_narrows`).
-/

namespace Formwork

open Formwork.Locale

variable {l : Locale} {text : String}

/-- Whatever the reader of numerals lets through is a numeral. -/
theorem Locale.exists_numeral {plain : List Char} (h : l.plainNumber text.toList = some plain) :
    ∃ t : Numeral, l.plainNumber text.toList = some t.text := by
  obtain ⟨t, -, -, rfl⟩ := plainNumber_eq_some_iff.mp h
  exact ⟨t, h⟩

/-- What the integers of any size are read from. -/
theorem readLocalInteger_eq_some_iff {n : Int} :
    readLocalInteger l text = some n ↔
      ∃ t stray, Writes l t stray (Text.trimChars text.toList) ∧ t.isWhole = true ∧
        t.value = n := by
  constructor
  · intro h
    cases hplain : l.plainNumber text.toList with
    | none => simp [readLocalInteger, hplain] at h
    | some plain =>
      obtain ⟨t, stray, hwrites, rfl⟩ := plainNumber_eq_some_iff.mp hplain
      rw [readLocalInteger_eq hplain] at h
      obtain ⟨hwhole, hvalue⟩ := Option.ite_none_right_eq_some.mp h
      exact ⟨t, stray, hwrites, hwhole, Option.some.inj hvalue⟩
  · rintro ⟨t, stray, hwrites, hwhole, rfl⟩
    have hplain : l.plainNumber text.toList = some t.text :=
      plainNumber_eq_some_iff.mpr ⟨t, stray, hwrites, rfl⟩
    rw [readLocalInteger_eq hplain, if_pos hwhole]

/-- Reading 128 bits fails for the same texts, and for integers that no width holds. -/
theorem readLocalWide_eq_readLocalInteger :
    readLocalWide l text =
      match readLocalInteger l text with
      | none => .error .invalid
      | some n => if Numeric.fitsWide n then .ok n else .error .tooWide := by
  cases hplain : l.plainNumber text.toList with
  | none => simp [readLocalWide, readLocalInteger, hplain]
  | some plain =>
    obtain ⟨t, ht⟩ := exists_numeral hplain
    rw [readLocalWide_eq ht, readLocalInteger_eq ht]
    cases t.isWhole <;> rfl

theorem integerConverter_eq (k : Numeric.IntegerType) :
    integerConverter k l text =
      match readLocalInteger l text with
      | none => .refused invalidNumber
      | some n => if k.holds n then .found (.integer k n) else .refused (outOfType k) := by
  rw [integerConverter, readLocalWide_eq_readLocalInteger]
  cases readLocalInteger l text with
  | none => rfl
  | some n =>
    cases hwide : Numeric.fitsWide n with
    | true => simp only [hwide, if_true]
    | false =>
      have hholds : k.holds n = false := by
        rw [Bool.eq_false_iff]
        intro h
        rw [fitsWide_of_holds h] at hwide
        cases hwide
      simp [hwide, hholds]

namespace ConverterRegistry

/-- A converter that refuses a text appends its error to those found so far. -/
theorem convert_refused {r : ConverterRegistry} {t : ScalarType} {c : Converter} {e : FieldError}
    (hc : r.converter? t = some c) (he : c l text = .refused e) (errors : List FieldError) :
    r.convert t l text errors = .ok (none, errors ++ [e]) := by
  simp only [convert, hc, he, ConversionResult.refused]
  rfl

theorem convert_bigInteger (errors : List FieldError) :
    builtIn.convert .bigInteger l text errors =
      match readLocalInteger l text with
      | none => .ok (none, errors ++ [invalidNumber])
      | some n => .ok (some (.bigInteger n), errors) := by
  cases hread : readLocalInteger l text with
  | none =>
    exact convert_refused builtIn_bigInteger (by simp only [bigIntegerConverter, hread]) errors
  | some n =>
    exact convert_found builtIn_bigInteger (by simp only [bigIntegerConverter, hread]) rfl errors

theorem convert_integer (k : Numeric.IntegerType) (errors : List FieldError) :
    builtIn.convert (.integer k) l text errors =
      match readLocalInteger l text with
      | none => .ok (none, errors ++ [invalidNumber])
      | some n =>
        if k.least ≤ n ∧ n ≤ k.greatest then .ok (some (.integer k n), errors)
        else .ok (none, errors ++ [outOfType k]) := by
  have hconvert := @integerConverter_eq l text k
  cases hread : readLocalInteger l text with
  | none =>
    simp only [hread] at hconvert
    exact convert_refused (builtIn_integer k) hconvert errors
  | some n =>
    have hholds : k.holds n = true ↔ k.least ≤ n ∧ n ≤ k.greatest := by
      simp [Numeric.IntegerType.holds]
    simp only [hread] at hconvert ⊢
    by_cases h : k.holds n = true
    · rw [if_pos h] at hconvert
      rw [if_pos (hholds.mp h)]
      exact convert_found (builtIn_integer k) hconvert rfl errors
    · rw [if_neg h] at hconvert
      rw [if_neg (mt hholds.mpr h)]
      exact convert_refused (builtIn_integer k) hconvert errors

/-- **Integers of fixed width.** In every locale a text is an integer of any size iff it spells a
numeral without a fraction, or with one of zeros. A text that is none is no number for the integers
of any width either. One that is gives the same integer in every width that has it, and in every
other width the error with the bounds of that width, whatever the number of its digits. -/
theorem convert_integer_narrows (k : Numeric.IntegerType) (l : Locale) (text : String)
    (errors : List FieldError) :
    (∀ n : Int, builtIn.convert .bigInteger l text errors = .ok (some (.bigInteger n), errors) ↔
      ∃ t stray, Writes l t stray (Text.trimChars text.toList) ∧ t.isWhole = true ∧ t.value = n) ∧
    (builtIn.convert .bigInteger l text errors = .ok (none, errors ++ [invalidNumber]) ∧
        builtIn.convert (.integer k) l text errors = .ok (none, errors ++ [invalidNumber]) ∨
      ∃ n : Int, builtIn.convert .bigInteger l text errors = .ok (some (.bigInteger n), errors) ∧
        builtIn.convert (.integer k) l text errors =
          if k.least ≤ n ∧ n ≤ k.greatest then .ok (some (.integer k n), errors)
          else .ok (none, errors ++
            [outOfRange (Numeric.integerText k.least) (Numeric.integerText k.greatest)])) := by
  rw [convert_bigInteger, convert_integer]
  refine ⟨fun n => ?_, ?_⟩
  · rw [← readLocalInteger_eq_some_iff]
    cases readLocalInteger l text <;> simp
  · cases readLocalInteger l text with
    | none => exact .inl ⟨rfl, rfl⟩
    | some n => exact .inr ⟨n, rfl, rfl⟩

end ConverterRegistry

end Formwork
