import Formwork.Conversion.BuiltIn
import Formwork.Proofs.Binding.Accounting
import Formwork.Proofs.Binding.Failures
import Formwork.Proofs.Property.Elements
import Formwork.Proofs.Validation.Ranges
import Formwork.Sample.Catalogue

/-!
# Bounds of the elements of a sequence

The numbers of a sequence and the texts that bounds are reported for meet by their positions alone:
the assignment passes over blank values, the numbers are those of the elements, and the checks pass
over blank values again.

- **Binding** (`outcome_of_sequence`): a parameter with values that can all be converted is bound,
  with their numbers in order.
- **Checks** (`ranges_of_sequence`): so each number is checked for the text that it was read from.
-/

namespace Formwork

variable {cx : BindContext} {s element : Schema} {t : ScalarType} {values : List String}

/-- White space at the ends of values does not count. -/
theorem trimmed_filledIn :
    (filledIn (values.map Text.trim)).map Text.trim = (filledIn values).map Text.trim := by
  have hblank : (fun v => !Text.isBlank v) ∘ Text.trim = fun v => !Text.isBlank v := by
    funext v
    rw [Function.comp_apply, Text.isBlank_trim]
  have htrim : Text.trim ∘ Text.trim = Text.trim := funext Text.trim_trim
  rw [filledIn, List.filter_map, hblank, List.map_map, htrim, filledIn]

/-- Values that can all be converted to numbers are. -/
theorem exists_numbers (ht : t.isNumber = true)
    (h : ∀ text ∈ filledIn values, ∃ x,
      cx.converters.convert t cx.locale (Text.trim text) [] = .ok (some x, [])) :
    ∃ numbers, List.Forall₂ (cx.converters.Reads t cx.locale)
      ((filledIn values).map Text.trim) numbers := by
  have hreads : ∀ text ∈ (filledIn values).map Text.trim,
      ∃ n, cx.converters.Reads t cx.locale text n := by
    intro text htext
    obtain ⟨v, hv, rfl⟩ := List.mem_map.mp htext
    obtain ⟨x, hx⟩ := h v hv
    exact ConverterRegistry.exists_reads ht hx
  obtain ⟨numbers, hnumbers⟩ := (exists_forall₂_iff (R := flip _)).mpr hreads
  exact ⟨numbers, hnumbers.flip⟩

/-! ## Binding -/

/-- A parameter of a sequence is bound with the numbers that its values are converted to. -/
theorem outcome_of_sequence {name : String} {bean : Value}
    (htarget : cx.target? bean name = some s) (hs : s.Wraps (.sequence element))
    (he : element.Wraps (.scalar t)) (ht : t.isNumber = true) {numbers : List Float}
    (hr : List.Forall₂ (cx.converters.Reads t cx.locale) ((filledIn values).map Text.trim)
      numbers) :
    (bindParameter cx name (values.map Text.trim) bean).2 = .bound numbers := by
  unfold BindContext.target? at htarget
  cases hpath : PropertyPath.parse name with
  | error e =>
    rw [hpath] at htarget
    cases htarget
  | ok path =>
    simp only [hpath] at htarget
    cases hreach : Value.reach cx path.segments bean with
    | error e =>
      rw [hreach] at htarget
      cases htarget
    | ok leaf =>
      rw [hreach] at htarget
      cases htarget
      rw [← trimmed_filledIn] at hr
      obtain ⟨w, hw, rfl⟩ := BindContext.assignment_numbers hs he ht hr
      refine outcome_of_assign hpath hreach ?_
      rw [Value.assign, hw]
      rfl

/-! ## Checks -/

/-- **Bounds of the elements of a sequence.** Let a parameter be bound to a sequence of numbers, the
sequence and its elements maybe in options and boxes, and let all its values that are not blank be
converted without an error. Then the numbers of the report are what they are converted to, one for
each of them, in their order. Under the name of the parameter, the rule of its field reports an
error of bounds for each value that is not blank and whose number is out of bounds, in their order,
with the text of the value, and no other errors of bounds. -/
theorem ranges_of_sequence {skip : String → Bool} {parameters : NameMap (List String)}
    {bean start : Value} {report : BindingReport}
    (hreport : (bindParameters cx skip parameters.entries bean).2 = report) {p : BoundParameter}
    (hp : (start, p) ∈ bindingSteps cx (parameters.entries.filter fun p => !skip p.1) bean)
    (hvalues : parameters.get? p.name = some values)
    (htarget : cx.target? start p.name = some s) (hs : s.Wraps (.sequence element))
    (he : element.Wraps (.scalar t)) (ht : t.isNumber = true)
    (hconvert : ∀ text ∈ filledIn values, ∃ x,
      cx.converters.convert t cx.locale (Text.trim text) [] = .ok (some x, [])) :
    List.Forall₂ (cx.converters.Reads t cx.locale) ((filledIn values).map Text.trim)
      (report.numbers p.name) ∧
    ∀ (rules : RuleSet) (event : String) (scope : RequiredScope) (c : CompiledRule),
      rules.Distinct → rules.ruleFor? event p.name = some c →
      List.Forall₂ (fun x e => c.Rejects p.name x.1 x.2 e)
        ((((filledIn values).map Text.trim).zip (report.numbers p.name)).filter
          fun x => !decide (c.AdmitsNumber x.2))
        (((rules.validate report.fieldValues event scope).under p.name).filter
          FieldError.isRange) := by
  obtain ⟨numbers, hnumbers⟩ := exists_numbers ht hconvert
  have hn : (report.parameters.map (·.name)).Nodup := by
    rw [← hreport]
    exact (BindingReport.accounts_bindParameters cx skip parameters.nodup_names bean).nodup
  have hmem : p ∈ report.parameters := by
    rw [← hreport, parameters_bindParameters]
    exact List.mem_map_of_mem hp
  have htrimmed : p.values = values.map Text.trim := by
    obtain ⟨submitted, hm, heq⟩ := values_of_mem_bindingSteps hp
    have hsubmitted := NameMap.mem_entries_iff.mp (List.mem_of_mem_filter hm)
    rw [heq, Option.some.inj (hvalues.symm.trans hsubmitted)]
  have hbound : p.outcome = .bound numbers := by
    rw [outcome_of_mem_bindingSteps hp]
    show (bindParameter cx p.name p.values start).2 = .bound numbers
    rw [htrimmed]
    exact outcome_of_sequence htarget hs he ht hnumbers
  have hown : report.numbers p.name = numbers := BindingReport.numbers_of_bound hn hmem hbound
  refine ⟨hown ▸ hnumbers, fun rules event scope c hrules hc => ?_⟩
  have hpresent : report.fieldValues.present p.name = (filledIn values).map Text.trim := by
    rw [CompiledRule.present_eq, BindingReport.values_fieldValues hn hmem, htrimmed,
      trimmed_filledIn]
  rw [RuleSet.filter_isRange_under_validate hrules (NameMap.nodup_names _)
    ((BindingReport.mem_names_submitted_iff hn).mpr ⟨p, hmem, rfl⟩)
    (BindingReport.conversionFailed_of_bound hn hmem hbound) hc, ← hpresent]
  exact CompiledRule.rejects_rangeErrors

/-- The rule of the quantities of an order. -/
def quantitiesRule : CompiledRule :=
  ⟨{ field := "quantities", minValue := some 1, maxValue := some 10 }, none⟩

/-- The rules of an order. -/
def orderRules : RuleSet := Sample.order.rules.toOption.getD .empty

/-- The report on four quantities of an order, of which one is blank. -/
def quantitiesReport : BindingReport :=
  (bindParameters (Sample.bindContext .builtIn .us) (fun _ => false)
    (NameMap.ofList [("quantities", ["0", " ", " 4 ", "99"])]).entries
    (.bean Sample.order.descriptor (Sample.order.fields?.getD []))).2

theorem ranges_of_sequence_quantities :
    quantitiesReport.numbers "quantities" = [0, 4, 99].map Numeric.floatOfInt ∧
    List.Forall₂ (fun x e => quantitiesRule.Rejects "quantities" x.1 x.2 e)
      ((["0", "4", "99"].zip ([0, 4, 99].map Numeric.floatOfInt)).filter
        fun x => !decide (quantitiesRule.AdmitsNumber x.2))
      (((orderRules.validate quantitiesReport.fieldValues "save" .all).under "quantities").filter
        FieldError.isRange) := by
  have hfilled : filledIn ["0", " ", " 4 ", "99"] = ["0", " 4 ", "99"] := by decide +kernel
  have hconvert : ∀ text ∈ filledIn ["0", " ", " 4 ", "99"], ∃ x,
      (Sample.bindContext .builtIn .us).converters.convert (.integer .int64) .us (Text.trim text)
        [] = .ok (some x, []) := by
    rw [hfilled]
    simp only [List.forall_mem_cons]
    exact ⟨⟨_, rfl⟩, ⟨_, rfl⟩, ⟨_, rfl⟩, nofun⟩
  have hreport : (bindParameters (Sample.bindContext .builtIn .us) (fun _ => false)
      (NameMap.ofList [("quantities", ["0", " ", " 4 ", "99"])]).entries
      (.bean Sample.order.descriptor (Sample.order.fields?.getD []))).2 = quantitiesReport := rfl
  obtain ⟨-, hranges⟩ := ranges_of_sequence hreport (List.mem_singleton.mpr rfl) rfl rfl (.self _)
    (.self _) rfl hconvert
  exact ⟨rfl, hranges orderRules "save" .all quantitiesRule (by decide +kernel) rfl⟩

end Formwork
