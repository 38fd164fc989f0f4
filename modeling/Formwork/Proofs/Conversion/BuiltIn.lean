import Formwork.Proofs.Conversion.Integer

/-!
# What built-in converters answer

A built-in converter finds a value of its type, or refuses the text with one error of a conversion,
or has nothing to say (`ConversionResult.Proper`, `proper_builtIn`).

- **Mistakes** (`exists_convert_builtIn`): a conversion with a built-in converter succeeds, with a
  value or with errors; no built-in converter gives a value of another type.
-/

namespace Formwork

/-- The keys of the errors of built-in converters. -/
def conversionKeys : List String :=
  ["converter.number.invalidNumber", "converter.number.outOfRange", "converter.date.invalidDate",
    "converter.enum.notAnEnumeratedValue"]

/-- The answers of a built-in converter of a type. -/
inductive ConversionResult.Proper (t : ScalarType) : ConversionResult → Prop
  | found {s : Scalar} : s.type = t → Proper t (.found s)
  | constant {e : Enumeration} {n : Nat} : t = .enumeration e → n < e.constants.length →
      Proper t { value := some (.ordinal n) }
  | refused {e : FieldError} {key : String} : key ∈ conversionKeys → e.key? = some key →
      Proper t (.refused e)
  | nothing : Proper t {}

namespace ConversionResult

section Converters

variable (t : ScalarType) (l : Locale) (text : String)

theorem proper_invalidNumber : (refused invalidNumber).Proper t :=
  .refused (by decide : "converter.number.invalidNumber" ∈ conversionKeys) rfl

theorem proper_outOfRange (least greatest : String) :
    (refused (outOfRange least greatest)).Proper t :=
  .refused (by decide : "converter.number.outOfRange" ∈ conversionKeys) rfl

theorem proper_integerConverter (k : Numeric.IntegerType) :
    (integerConverter k l text).Proper (.integer k) := by
  unfold integerConverter
  split
  · exact proper_invalidNumber _
  · exact proper_outOfRange _ _ _
  · split
    · exact .found rfl
    · exact proper_outOfRange _ _ _

theorem proper_singleConverter : (singleConverter l text).Proper .single := by
  unfold singleConverter
  split
  · exact proper_invalidNumber _
  · split
    · exact proper_outOfRange _ _ _
    · exact .found rfl

theorem proper_doubleConverter : (doubleConverter l text).Proper .double := by
  unfold doubleConverter
  split
  · exact proper_invalidNumber _
  · exact .found rfl

theorem proper_bigIntegerConverter : (bigIntegerConverter l text).Proper .bigInteger := by
  unfold bigIntegerConverter
  split
  · exact proper_invalidNumber _
  · exact .found rfl

theorem proper_decimalConverter : (decimalConverter l text).Proper .decimal := by
  unfold decimalConverter
  split
  · exact proper_invalidNumber _
  · exact .found rfl

theorem proper_dateConverter : (dateConverter l text).Proper .date := by
  unfold dateConverter
  dsimp only
  split
  · exact .refused (by decide : "converter.date.invalidDate" ∈ conversionKeys) rfl
  · exact .found rfl

theorem proper_characterConverter : (characterConverter l text).Proper .character := by
  unfold characterConverter
  split
  · exact .nothing
  · exact .found rfl

theorem proper_constantConverter (e : Enumeration) :
    (constantConverter e.constants l text).Proper (.enumeration e) := by
  unfold constantConverter
  split
  · next i hi => exact .constant rfl (List.findIdx?_eq_some_iff_getElem.mp hi).1
  · exact .refused (by decide : "converter.enum.notAnEnumeratedValue" ∈ conversionKeys) rfl

end Converters

/-- A built-in converter finds a value of its type, or an error of a conversion, or nothing. -/
theorem proper_builtIn {t : ScalarType} {c : Converter} (l : Locale) (text : String)
    (h : ConverterRegistry.builtIn.converter? t = some c) : (c l text).Proper t := by
  cases t with
  | foreign name => cases h
  | integer k =>
    rw [ConverterRegistry.builtIn_integer] at h
    obtain rfl := Option.some.inj h
    exact proper_integerConverter l text k
  | bool | text =>
    cases h
    exact .found rfl
  | single =>
    cases h
    exact proper_singleConverter l text
  | double =>
    cases h
    exact proper_doubleConverter l text
  | bigInteger =>
    cases h
    exact proper_bigIntegerConverter l text
  | decimal =>
    cases h
    exact proper_decimalConverter l text
  | date =>
    cases h
    exact proper_dateConverter l text
  | character =>
    cases h
    exact proper_characterConverter l text
  | enumeration e =>
    cases h
    exact proper_constantConverter l text e

end ConversionResult

namespace ConverterRegistry

variable {r : ConverterRegistry} {t : ScalarType} {c : Converter} {l : Locale} {text : String}

/-- A converter that answers properly makes no mistake. -/
theorem exists_convert_of_proper (hc : r.converter? t = some c) (h : (c l text).Proper t)
    (errors : List FieldError) : ∃ answer, r.convert t l text errors = .ok answer := by
  generalize ha : c l text = answer at h
  cases h with
  | found ht => exact ⟨_, convert_found hc ha ht errors⟩
  | @constant e n ht hn =>
    subst ht
    exact ⟨(some (.enumeration e n), errors), by simp [convert, hc, ha, Converted.toScalar?, hn]⟩
  | refused => exact ⟨_, convert_refused hc ha errors⟩
  | nothing => exact ⟨(none, errors), by simp [convert, hc, ha]⟩

theorem exists_convert_builtIn (h : (builtIn.converter? t).isSome = true)
    (errors : List FieldError) : ∃ answer, builtIn.convert t l text errors = .ok answer := by
  obtain ⟨c, hc⟩ := Option.isSome_iff_exists.mp h
  exact exists_convert_of_proper hc (ConversionResult.proper_builtIn l text hc) errors

/-- A type with a built-in converter has an initial value. -/
theorem isSome_initial?_of_builtIn (h : (builtIn.converter? t).isSome = true) :
    t.initial?.isSome = true := by
  cases t with
  | foreign name => cases h
  | _ => rfl

end ConverterRegistry

end Formwork
