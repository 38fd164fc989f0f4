import Formwork.Proofs.Except
import Formwork.Proofs.Validation.Order

/-!
# Errors of bounds

- **Checks** (`Check.range_eq_some_iff`): which bound an error names.
- **Parameters** (`rejects_rangeErrors`): the texts of a parameter whose numbers are out of bounds
  have an error each, in order, and the others have none.
- **Rules** (`filter_isRange_under_validate`): the errors of bounds under a submitted name are those
  of the rule of its field.
-/

namespace Formwork

/-- An error says that a number is out of bounds. -/
def FieldError.isRange (e : FieldError) : Bool :=
  e.key? == some "validation.minvalue.valueBelowMinimum" ||
    e.key? == some "validation.maxvalue.valueAboveMaximum"

/-! ## Checks -/

namespace Check

/-- A number is checked against the lower bound first. -/
theorem range_eq_some_iff {value : Float} {least greatest : Option Float} {e : FieldError} :
    range value least greatest = some e ↔
      (∃ y ∈ least, value < y ∧
        e = (FieldError.constraint "validation.minvalue.valueBelowMinimum").addParameter
          (Numeric.floatText y)) ∨
      (∀ y ∈ least, ¬ value < y) ∧ ∃ y ∈ greatest, y < value ∧
        e = (FieldError.constraint "validation.maxvalue.valueAboveMaximum").addParameter
          (Numeric.floatText y) := by
  unfold range
  cases least with
  | none =>
    cases greatest with
    | none => simp
    | some x => by_cases h : x < value <;> simp [Option.filter, h, eq_comm]
  | some y =>
    by_cases hy : value < y
    · simp [Option.filter, hy, eq_comm]
    · cases greatest with
      | none => simp [Option.filter, hy]
      | some x => by_cases h : x < value <;> simp [Option.filter, hy, h, eq_comm]

theorem isRange_range {value : Float} {least greatest : Option Float} {e : FieldError}
    (h : range value least greatest = some e) : e.isRange = true := by
  rcases range_eq_some_iff.mp h with ⟨y, -, -, rfl⟩ | ⟨-, y, -, -, rfl⟩
  · rfl
  · rfl

theorem isRange_length {value : String} {least greatest : Option Nat} {e : FieldError}
    (h : length value least greatest = some e) : e.isRange = false := by
  unfold length at h
  dsimp only at h
  split at h <;> cases h
  all_goals rfl

theorem isRange_mask {value : String} {pattern : Text.Pattern} {e : FieldError}
    (h : mask value pattern = some e) : e.isRange = false := by
  rw [eq_of_mask_eq_some h]
  rfl

end Check

/-! ## Parameters -/

namespace CompiledRule

variable {c : CompiledRule} {v : FieldValues} {name : String}

instance (x : Float) : Decidable (c.AdmitsNumber x) := inferInstanceAs (Decidable (_ ∧ _))

/-- An error says of a text of a parameter that its number is out of bounds, and names the bound. -/
structure Rejects (c : CompiledRule) (name text : String) (x : Float) (e : FieldError) : Prop where
  field_eq : e.field = some name
  value_eq : e.value = some text
  kind_eq : e.kind = .constraint
  bound : (∃ y ∈ c.rule.minValue, x < y ∧
      e.key? = some "validation.minvalue.valueBelowMinimum" ∧
      e.parameters = [Numeric.floatText y]) ∨
    ∃ y ∈ c.rule.maxValue, y < x ∧ e.key? = some "validation.maxvalue.valueAboveMaximum" ∧
      e.parameters = [Numeric.floatText y]

theorem rejects_of_range {text : String} {x : Float} {e : FieldError}
    (h : Check.range x c.rule.minValue c.rule.maxValue = some e) :
    c.Rejects name text x (e.setField name (some text)) := by
  rcases Check.range_eq_some_iff.mp h with ⟨y, hy, hlt, rfl⟩ | ⟨-, y, hy, hlt, rfl⟩
  · exact ⟨rfl, rfl, rfl, .inl ⟨y, hy, hlt, rfl, rfl⟩⟩
  · exact ⟨rfl, rfl, rfl, .inr ⟨y, hy, hlt, rfl, rfl⟩⟩

theorem admitsNumber_of_not_hasBounds (h : ¬ c.hasBounds = true) (x : Float) :
    c.AdmitsNumber x := by
  simp only [hasBounds, Bool.or_eq_true, not_or, Option.not_isSome_iff_eq_none] at h
  simp [AdmitsNumber, h.1, h.2]

/-- The texts whose numbers are out of bounds have an error each, and there are no others. -/
theorem rejects_rangeErrors : List.Forall₂ (fun p e => c.Rejects name p.1 p.2 e)
    (((v.present name).zip (v.numbers name)).filter fun p => !decide (c.AdmitsNumber p.2))
    (c.rangeErrors v name) := by
  unfold rangeErrors
  split
  · have hout : ∀ p : String × Float, (!decide (c.AdmitsNumber p.2)) =
        ((Check.range p.2 c.rule.minValue c.rule.maxValue).map
          (·.setField name (some p.1))).isSome := by
      intro p
      rw [Option.isSome_map, Bool.eq_iff_iff, Bool.not_eq_true', decide_eq_false_iff_not,
        Option.isSome_iff_ne_none, ne_eq, Check.range_eq_none_iff]
      rfl
    simp only [hout]
    refine (forall₂_filterMap _ _).imp fun p e h => ?_
    obtain ⟨found, hfound, rfl⟩ := Option.map_eq_some_iff.mp h
    exact rejects_of_range hfound
  · next h =>
    have hnone : (((v.present name).zip (v.numbers name)).filter
        fun p => !decide (c.AdmitsNumber p.2)) = [] := by
      simp [admitsNumber_of_not_hasBounds h]
    rw [hnone]
    exact .nil

/-- The errors of single values are of bounds if those of their checks are. -/
theorem isRange_of_mem_checked {α : Type} {l : List α} {check : α → Option FieldError}
    {text : α → String} {ofBounds : Bool} (hcheck : ∀ x e, check x = some e → e.isRange = ofBounds)
    {e : FieldError}
    (h : e ∈ l.filterMap fun x => (check x).map (·.setField name (some (text x)))) :
    e.isRange = ofBounds := by
  obtain ⟨x, found, hfound, rfl⟩ := exists_of_mem_checked h
  exact hcheck x found hfound

theorem isRange_of_mem_rangeErrors {e : FieldError} (h : e ∈ c.rangeErrors v name) :
    e.isRange = true := by
  unfold rangeErrors at h
  split at h
  · exact isRange_of_mem_checked (fun _ _ => Check.isRange_range) h
  · cases h

theorem isRange_of_mem_lengthErrors {e : FieldError} (h : e ∈ c.lengthErrors v name) :
    e.isRange = false := isRange_of_mem_checked (fun _ _ => Check.isRange_length) h

theorem isRange_of_mem_maskErrors {e : FieldError} (h : e ∈ c.maskErrors v name) :
    e.isRange = false := by
  unfold maskErrors at h
  split at h
  · cases h
  · exact isRange_of_mem_checked (fun _ _ => Check.isRange_mask) h

theorem rangeErrors_eq_nil (h : allBlank (v.values name) = true) : c.rangeErrors v name = [] := by
  unfold rangeErrors
  rw [present_eq, filledIn_eq_nil h]
  simp

/-- The errors of bounds of a parameter that could be converted. -/
theorem filter_isRange_parameterErrors (h : v.conversionFailed name = false) :
    (c.parameterErrors v name).filter FieldError.isRange = c.rangeErrors v name := by
  unfold parameterErrors Check.required
  by_cases hb : allBlank (v.values name) = true
  · have hall : (v.values name).all Text.isBlank = true := hb
    rw [if_pos hall, rangeErrors_eq_nil hb]
    dsimp only
    split <;> rfl
  · have hfilled : ¬ (v.values name).all Text.isBlank = true := hb
    have hlength : (c.lengthErrors v name).filter FieldError.isRange = [] :=
      List.filter_eq_nil_iff.mpr fun e he => by simp [isRange_of_mem_lengthErrors he]
    have hmask : (c.maskErrors v name).filter FieldError.isRange = [] :=
      List.filter_eq_nil_iff.mpr fun e he => by simp [isRange_of_mem_maskErrors he]
    have hrange : (c.rangeErrors v name).filter FieldError.isRange = c.rangeErrors v name :=
      List.filter_eq_self.mpr fun e he => isRange_of_mem_rangeErrors he
    rw [if_neg hfilled, h, if_neg Bool.false_ne_true, List.filter_append, List.filter_append,
      hlength, hrange, hmask, List.nil_append, List.append_nil]

end CompiledRule

/-! ## Rules -/

namespace RuleSet

variable {s : RuleSet} {v : FieldValues} {event name : String} {c : CompiledRule}

/-- The errors of bounds under a submitted name come from the rule of its field. -/
theorem filter_isRange_applicable (hs : s.Distinct) (hn : v.names.Nodup) (hm : name ∈ v.names)
    (hv : v.conversionFailed name = false) (hc : s.ruleFor? event name = some c)
    (scope : RequiredScope) :
    (((s.applicable event).flatMap fun c => c.errors v.sorted scope).filter
        (·.1 == name)).filter (·.2.isRange) = (c.rangeErrors v name).map (name, ·) := by
  obtain ⟨-, hfield⟩ := (ruleFor?_eq_some_iff hs).mp hc
  have hcount : v.sorted.names.count name = 1 := by
    rw [FieldValues.count_sorted_names, List.count_eq_one_of_mem hn hm]
  rw [List.filter_filter, List.filter_flatMap,
    flatMap_eq_of_key (hs.applicable event) (k := fieldName name)]
  · have hrule : (s.applicable event).find? (·.field == fieldName name) = some c := hc
    rw [hrule, Option.toList_some, List.flatMap_singleton, ← List.filter_filter,
      CompiledRule.filter_errors (FieldValues.mem_sorted_names_iff.mpr hm) hfield.symm, hcount,
      CompiledRule.parameterErrors_sorted, ← CompiledRule.filter_isRange_parameterErrors hv]
    simp [List.filter_map, Function.comp_def]
  · intro d _ hne
    obtain ⟨x, hx⟩ := List.exists_mem_of_ne_nil _ hne
    obtain ⟨hx, hrange⟩ := List.mem_filter.mp hx
    simp only [Bool.and_eq_true, beq_iff_eq] at hrange
    -- That a field is missing is no error of bounds, so its name may have indexes.
    rcases CompiledRule.missing_or_fieldName_of_mem_errors hx with rfl | hname
    · cases hrange.1
    · rw [← hrange.2, hname]

/-- Under a submitted name, the errors of bounds of its parameter are those of the rule. -/
theorem filter_isRange_under_validate (hs : s.Distinct) (hn : v.names.Nodup) (hm : name ∈ v.names)
    (hv : v.conversionFailed name = false) (hc : s.ruleFor? event name = some c)
    (scope : RequiredScope) :
    ((s.validate v event scope).under name).filter FieldError.isRange = c.rangeErrors v name := by
  have hnamed : ∀ e ∈ c.rangeErrors v name, e.inField name = e := fun e he =>
    FieldError.inField_eq_self (CompiledRule.field_of_mem_rangeErrors he) name
  have hempty : FieldErrors.empty.under name = [] := rfl
  have hkey : (FieldError.isRange ∘ fun x : String × FieldError => x.2.inField x.1) =
      fun x => x.2.isRange := rfl
  rw [validate, FieldErrors.under_addAll, hempty, List.nil_append, List.filter_map, hkey,
    filter_isRange_applicable hs hn hm hv hc, List.map_map]
  exact (List.map_congr_left hnamed).trans (List.map_id _)

end RuleSet

end Formwork
