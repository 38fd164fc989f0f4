import Formwork.Proofs.Property.Numbers
import Formwork.Proofs.Text.Blank
import Formwork.Proofs.Validation.Errors
import Formwork.Validation.Fields

/-!
# What the checks leave

- **Single checks** (`Check.length_eq_none_iff`, `Check.range_eq_none_iff`): no error is the same as
  a value between the bounds.
- **Rules** (`holds_of_parameterErrors`): a parameter without errors that could be converted has
  only values and numbers that the rule admits.
- **Sets of rules** (`isEmpty_validate_iff`): no errors at all means none of any rule that counts.
  A rule that no parameter is checked against makes no difference (`validate_without`).
-/

namespace Formwork

namespace Check

theorem length_eq_none_iff {value : String} {least greatest : Option Nat} :
    length value least greatest = none ↔
      (∀ n ∈ least, n ≤ value.toList.length) ∧ ∀ n ∈ greatest, value.toList.length ≤ n := by
  unfold length
  cases least with
  | none =>
    cases greatest with
    | none => simp
    | some n =>
      by_cases h : n < value.toList.length
      · simp [Option.filter, h]
      · simp [Option.filter, h]
        omega
  | some m =>
    by_cases hm : value.toList.length < m
    · refine iff_of_false (by simp [Option.filter, hm]) fun h => ?_
      have hle := h.1 m rfl
      omega
    · cases greatest with
      | none =>
        simp [Option.filter, hm]
        omega
      | some n =>
        by_cases h : n < value.toList.length
        · simp [Option.filter, hm, h]
        · simp [Option.filter, hm, h]
          omega

/-- Numbers that cannot be compared are not out of bounds. -/
theorem range_eq_none_iff {value : Float} {least greatest : Option Float} :
    range value least greatest = none ↔
      (∀ x ∈ least, ¬ value < x) ∧ ∀ x ∈ greatest, ¬ x < value := by
  unfold range
  cases least with
  | none =>
    cases greatest with
    | none => simp
    | some x => by_cases h : x < value <;> simp [Option.filter, h]
  | some y =>
    by_cases hy : value < y
    · simp [Option.filter, hy]
    · cases greatest with
      | none => simp [Option.filter, hy]
      | some x => by_cases h : x < value <;> simp [Option.filter, hy, h]

theorem maskWith_eq_none_iff {P : Type} {E : Text.PatternEngine P} {value : String} {pattern : P} :
    maskWith E value pattern = none ↔ E.isMatch pattern value = true := by
  unfold maskWith
  split <;> simp_all

theorem mask_eq_none_iff {value : String} {pattern : Text.Pattern} :
    mask value pattern = none ↔ pattern.matchesWithin value.toList = true := maskWith_eq_none_iff

theorem eq_of_mask_eq_some {value : String} {pattern : Text.Pattern} {e : FieldError}
    (h : mask value pattern = some e) : e = .constraint "validation.mask.valueDoesNotMatch" := by
  unfold mask maskWith at h
  split at h <;> cases h
  rfl

end Check

theorem FieldValues.mem_sorted_names_iff {v : FieldValues} {name : String} :
    name ∈ v.sorted.names ↔ name ∈ v.names := (List.mergeSort_perm _ _).mem_iff

theorem allBlank_map_trim (values : List String) :
    allBlank (values.map Text.trim) = allBlank values := by
  have hcomp : Text.isBlank ∘ Text.trim = Text.isBlank := by
    funext s
    rw [Function.comp_apply, Text.isBlank_trim]
  unfold allBlank
  rw [List.all_map, hcomp]

namespace CompiledRule

variable {c : CompiledRule} {v : FieldValues} {name : String}

/-- The rule admits a text. -/
def AdmitsText (c : CompiledRule) (s : String) : Prop :=
  (∀ n ∈ c.rule.minLength, n ≤ s.toList.length) ∧
    (∀ n ∈ c.rule.maxLength, s.toList.length ≤ n) ∧
    ∀ p ∈ c.pattern, p.matchesWithin s.toList = true

/-- The rule admits a number. -/
def AdmitsNumber (c : CompiledRule) (x : Float) : Prop :=
  (∀ y ∈ c.rule.minValue, ¬ x < y) ∧ ∀ y ∈ c.rule.maxValue, ¬ y < x

/-- Values keep to the rule: each of them that is not blank, and the numbers that they were
converted to. -/
def Holds (c : CompiledRule) (values : List String) (numbers : List Float) : Prop :=
  (∀ s ∈ values, Text.isBlank s = false → c.AdmitsText (Text.trim s)) ∧
    (allBlank values = false → ∀ x ∈ numbers, c.AdmitsNumber x)

/-- White space at the ends of values does not count. -/
theorem holds_map_trim_iff {values : List String} {numbers : List Float} :
    c.Holds (values.map Text.trim) numbers ↔ c.Holds values numbers := by
  unfold Holds
  rw [allBlank_map_trim]
  simp only [List.forall_mem_map, Text.isBlank_trim, Text.trim_trim]

theorem mem_present_iff {s : String} :
    s ∈ v.present name ↔ ∃ t ∈ v.values name, Text.isBlank t = false ∧ Text.trim t = s := by
  unfold FieldValues.present
  rw [List.mem_filter, List.mem_map]
  constructor
  · rintro ⟨⟨t, ht, rfl⟩, hs⟩
    rw [Text.isEmpty_trim, Bool.not_eq_true'] at hs
    exact ⟨t, ht, hs, rfl⟩
  · rintro ⟨t, ht, hs, rfl⟩
    rw [Text.isEmpty_trim, Bool.not_eq_true']
    exact ⟨⟨t, ht, rfl⟩, hs⟩

theorem present_eq : v.present name = (filledIn (v.values name)).map Text.trim := by
  have hcomp : (fun s : String => !s.isEmpty) ∘ Text.trim = fun s => !Text.isBlank s := by
    funext s
    rw [Function.comp_apply, Text.isEmpty_trim]
  rw [FieldValues.present, filledIn, List.filter_map, hcomp]

theorem length_present : (v.present name).length = (filledIn (v.values name)).length := by
  rw [present_eq, List.length_map]

theorem admitsText_of_errors (hl : c.lengthErrors v name = []) (hm : c.maskErrors v name = [])
    {s : String} (hs : s ∈ v.present name) : c.AdmitsText s := by
  have hlength := Check.length_eq_none_iff.mp
    (Option.map_eq_none_iff.mp (List.filterMap_eq_nil_iff.mp hl s hs))
  refine ⟨hlength.1, hlength.2, fun p hp => ?_⟩
  unfold maskErrors at hm
  rw [hp] at hm
  exact Check.mask_eq_none_iff.mp
    (Option.map_eq_none_iff.mp (List.filterMap_eq_nil_iff.mp hm s hs))

/-- Numbers are admitted if none is left over when the texts run out. -/
theorem admitsNumber_of_errors (h : c.rangeErrors v name = [])
    (hn : (v.numbers name).length ≤ (v.present name).length) {x : Float}
    (hx : x ∈ v.numbers name) : c.AdmitsNumber x := by
  unfold rangeErrors at h
  split at h
  · rw [← List.map_snd_zip hn] at hx
    obtain ⟨⟨s, y⟩, hm, rfl⟩ := List.mem_map.mp hx
    exact Check.range_eq_none_iff.mp
      (Option.map_eq_none_iff.mp (List.filterMap_eq_nil_iff.mp h _ hm))
  · next hbounds =>
    simp only [hasBounds, Bool.or_eq_true, not_or, Option.not_isSome_iff_eq_none] at hbounds
    refine ⟨fun y hy => ?_, fun y hy => ?_⟩
    · rw [hbounds.1] at hy
      cases hy
    · rw [hbounds.2] at hy
      cases hy

/-- A parameter without errors that could be converted keeps to the rule. -/
theorem holds_of_parameterErrors (h : c.parameterErrors v name = [])
    (hc : v.conversionFailed name = false)
    (hn : allBlank (v.values name) = false →
      (v.numbers name).length ≤ (filledIn (v.values name)).length) :
    c.Holds (v.values name) (v.numbers name) := by
  unfold parameterErrors Check.required at h
  cases hb : allBlank (v.values name) with
  | true =>
    refine ⟨fun s hs hne => ?_, fun hf => Bool.noConfusion (hb.symm.trans hf)⟩
    have hall := List.all_eq_true.mp hb s hs
    rw [hne] at hall
    cases hall
  | false =>
    have hb' : ((v.values name).all Text.isBlank) = false := hb
    simp only [hb', Bool.false_eq_true, ↓reduceIte, hc, List.append_eq_nil_iff] at h
    obtain ⟨hlength, hrange, hmask⟩ := h
    refine ⟨fun s hs hne => ?_, fun _ x hx => ?_⟩
    · exact admitsText_of_errors hlength hmask (mem_present_iff.mpr ⟨s, hs, hne, rfl⟩)
    · exact admitsNumber_of_errors hrange (by rw [length_present]; exact hn hb) hx

/-- A rule without errors has none for any parameter of its field. -/
theorem parameterErrors_of_errors {scope : RequiredScope} (h : c.errors v scope = [])
    (hm : name ∈ v.names) (hf : fieldName name = c.field) : c.parameterErrors v name = [] := by
  have hmem : name ∈ v.names.filter fun name => fieldName name == c.field :=
    List.mem_filter.mpr ⟨hm, beq_iff_eq.mpr hf⟩
  unfold errors at h
  split at h
  · next hnil =>
    rw [hnil] at hmem
    cases hmem
  · rw [List.flatMap_eq_nil_iff] at h
    exact List.map_eq_nil_iff.mp (h name hmem)

/-- A rule that does not ask for a value has no errors without parameters of its field. -/
theorem errors_eq_nil {scope : RequiredScope} (hr : c.rule.required = false)
    (hf : ∀ name ∈ v.names, fieldName name ≠ c.field) : c.errors v scope = [] := by
  have hnil : (v.names.filter fun name => fieldName name == c.field) = [] := by
    rw [List.filter_eq_nil_iff]
    exact fun name hm he => hf name hm (beq_iff_eq.mp he)
  unfold errors
  rw [hnil]
  simp [hr]

end CompiledRule

namespace RuleSet

theorem isEmpty_validate_iff {s : RuleSet} {v : FieldValues} {event : String}
    {scope : RequiredScope} :
    (s.validate v event scope).isEmpty = true ↔
      ∀ c ∈ s.applicable event, c.errors v.sorted scope = [] := by
  unfold validate
  rw [FieldErrors.isEmpty_addAll_iff, List.flatMap_eq_nil_iff]
  exact and_iff_right rfl

/-- A rule that no parameter is checked against and that does not ask for a value could as well be
missing. -/
theorem validate_without {front left : List CompiledRule} {c : CompiledRule} {v : FieldValues}
    (hr : c.rule.required = false) (hf : ∀ name ∈ v.names, fieldName name ≠ c.field)
    (event : String) (scope : RequiredScope) :
    RuleSet.validate ⟨front ++ c :: left⟩ v event scope =
      RuleSet.validate ⟨front ++ left⟩ v event scope := by
  have hnone : c.errors v.sorted scope = [] := by
    refine CompiledRule.errors_eq_nil hr fun name hm => hf name ?_
    exact FieldValues.mem_sorted_names_iff.mp hm
  unfold validate applicable
  rw [List.filter_append, List.filter_cons, List.filter_append, List.flatMap_append,
    List.flatMap_append]
  split
  · rw [List.flatMap_cons, hnone, List.nil_append]
  · rfl

end RuleSet

end Formwork
