import Formwork.Conversion.BuiltIn
import Formwork.Proofs.Binding.Accounting
import Formwork.Proofs.Binding.Failures
import Formwork.Proofs.Conversion.BuiltIn
import Formwork.Proofs.Validation.Order

/-!
# Missing values have no other errors

- **Checks** (`alone_of_mem_parameterErrors`): what is said of a missing value is all that a rule
  says of a parameter, and the parameter is blank.
- **Rules** (`alone_of_mem_applicable`): it is all that the rules say under a name, since there is
  one rule for a field, and a field without parameters is no name of one.
- **Conversions** (`exists_reported_of_mem_under`): the errors of conversions are about texts that
  are not blank.
- **Built-in converters** (`key?_of_reported_builtIn`): none of them says that a value is missing.
- **Errors** (`missing_alone`): so the error of a missing value is the only one under its name,
  unless a converter says of its own that a value is missing.
-/

namespace Formwork

/-! ## Checks -/

theorem FieldError.key?_addParameter (e : FieldError) (p : String) :
    (e.addParameter p).key? = e.key? := rfl

namespace Check

theorem key?_length {value : String} {least greatest : Option Nat} {e : FieldError}
    (h : length value least greatest = some e) : e.key? ≠ missing.key? := by
  unfold length at h
  dsimp only at h
  split at h <;> cases h
  all_goals
    rw [FieldError.key?_addParameter]
    decide

theorem key?_range {value : Float} {least greatest : Option Float} {e : FieldError}
    (h : range value least greatest = some e) : e.key? ≠ missing.key? := by
  unfold range at h
  split at h <;> cases h
  all_goals
    rw [FieldError.key?_addParameter]
    decide

theorem key?_mask {value : String} {pattern : Text.Pattern} {e : FieldError}
    (h : mask value pattern = some e) : e.key? ≠ missing.key? := by
  rw [eq_of_mask_eq_some h]
  decide

end Check

namespace CompiledRule

variable {c : CompiledRule} {v : FieldValues} {name : String} {e : FieldError}

/-- The errors of single values have the keys of their checks. -/
theorem key?_of_mem_checked {α : Type} {l : List α} {check : α → Option FieldError}
    {text : α → String} {key : Option String} (hcheck : ∀ x e, check x = some e → e.key? ≠ key)
    (h : e ∈ l.filterMap fun x => (check x).map (·.setField name (some (text x)))) :
    e.key? ≠ key := by
  obtain ⟨x, found, hfound, rfl⟩ := exists_of_mem_checked h
  exact hcheck x found hfound

theorem key?_of_mem_lengthErrors (h : e ∈ c.lengthErrors v name) :
    e.key? ≠ Check.missing.key? :=
  key?_of_mem_checked (fun _ _ => Check.key?_length) h

theorem key?_of_mem_rangeErrors (h : e ∈ c.rangeErrors v name) :
    e.key? ≠ Check.missing.key? := by
  unfold rangeErrors at h
  split at h
  · exact key?_of_mem_checked (fun _ _ => Check.key?_range) h
  · cases h

theorem key?_of_mem_maskErrors (h : e ∈ c.maskErrors v name) : e.key? ≠ Check.missing.key? := by
  unfold maskErrors at h
  split at h
  · cases h
  · exact key?_of_mem_checked (fun _ _ => Check.key?_mask) h

/-- A missing value is all that a rule says of a parameter. -/
theorem alone_of_mem_parameterErrors (h : e ∈ c.parameterErrors v name)
    (hk : e.key? = Check.missing.key?) :
    allBlank (v.values name) = true ∧ c.parameterErrors v name = [e] := by
  unfold parameterErrors Check.required at h ⊢
  cases hb : (v.values name).all Text.isBlank with
  | true =>
    refine ⟨hb, ?_⟩
    simp only [hb, ↓reduceIte] at h ⊢
    split at h
    · next hr => rw [if_pos hr, List.mem_singleton.mp h]
    · cases h
  | false =>
    simp only [hb, Bool.false_eq_true, ↓reduceIte] at h
    rcases List.mem_append.mp h with h | h
    · exact absurd hk (key?_of_mem_lengthErrors h)
    · split at h
      · cases h
      · rcases List.mem_append.mp h with h | h
        · exact absurd hk (key?_of_mem_rangeErrors h)
        · exact absurd hk (key?_of_mem_maskErrors h)

/-! ## Rules -/

variable {scope : RequiredScope}

/-- A missing value is all that a rule says under a name. -/
theorem alone_of_mem_errors (hn : v.names.Nodup) (hf : fieldName c.field = c.field)
    (h : (name, e) ∈ c.errors v scope) (hk : e.key? = Check.missing.key?) :
    (c.errors v scope).filter (·.1 == name) = [(name, e)] ∧
      (name ∈ v.names → allBlank (v.values name) = true) := by
  have hfield : fieldName name = c.field := fieldName_of_mem_errors hf h
  by_cases hm : name ∈ v.names
  · obtain ⟨hblank, halone⟩ := alone_of_mem_parameterErrors ((mem_errors_iff hm hfield).mp h) hk
    refine ⟨?_, fun _ => hblank⟩
    rw [filter_errors hm hfield, List.count_eq_one_of_mem hn hm, halone]
    rfl
  · refine ⟨?_, fun hmem => absurd hmem hm⟩
    unfold errors at h ⊢
    split at h
    · split at h
      · next hr =>
        rw [if_pos hr, ← List.mem_singleton.mp h]
        simp
      · cases h
    · obtain ⟨n, hmem, hx⟩ := List.mem_flatMap.mp h
      obtain ⟨e', -, he⟩ := List.mem_map.mp hx
      cases he
      exact absurd (List.mem_filter.mp hmem).1 hm

end CompiledRule

/-- A missing value is all that the rules say under a name. -/
theorem RuleSet.alone_of_mem_applicable {s : RuleSet} {v : FieldValues} {event : String}
    {scope : RequiredScope} {name : String} {e : FieldError} (hs : s.Distinct)
    (hf : ∀ c ∈ s.rules, fieldName c.field = c.field) (hn : v.names.Nodup)
    (h : (name, e) ∈ (s.applicable event).flatMap fun c => c.errors v scope)
    (hk : e.key? = Check.missing.key?) :
    ((s.applicable event).flatMap fun c => c.errors v scope).filter (·.1 == name) = [(name, e)] ∧
      (name ∈ v.names → allBlank (v.values name) = true) := by
  obtain ⟨c, hc, he⟩ := List.mem_flatMap.mp h
  have hindex : fieldName c.field = c.field := hf c (List.mem_of_mem_filter hc)
  obtain ⟨hone, hblank⟩ := CompiledRule.alone_of_mem_errors hn hindex he hk
  have hrule : s.ruleFor? event name = some c :=
    (ruleFor?_eq_some_iff hs).mpr ⟨hc, (CompiledRule.fieldName_of_mem_errors hindex he).symm⟩
  refine ⟨?_, hblank⟩
  rw [filter_applicable hs hf, hrule, Option.toList_some, List.flatMap_singleton, hone]

/-! ## Conversions -/

/-- Texts that are converted are not blank. -/
theorem Schema.isBlank_of_mem_converted {s : Schema} {values : List String} {t : ScalarType}
    {raw : String} (h : (t, raw) ∈ s.converted values) : Text.isBlank raw = false := by
  induction s generalizing values with
  | scalar t' =>
    obtain ⟨found, hfound, he⟩ := Option.map_eq_some_iff.mp (Option.mem_toList.mp h)
    cases he
    have hne := List.find?_some hfound
    obtain ⟨text, -, rfl⟩ := List.mem_map.mp (List.mem_of_find?_eq_some hfound)
    rwa [Text.isEmpty_trim, Bool.not_eq_true', ← Text.isBlank_trim] at hne
  | option inner ih => exact ih h
  | box inner ih => exact ih h
  | sequence element ih =>
    obtain ⟨text, -, htext⟩ := List.mem_flatMap.mp h
    exact ih htext
  | map kind element ih => cases h
  | bean name => cases h

section Conversions

variable {cx : BindContext} {bean : Value} {p : BoundParameter} {e : FieldError}

/-- A blank parameter has no errors of a conversion. -/
theorem BindContext.reports_eq_nil (h : allBlank p.values = true) : cx.reports bean p = [] := by
  unfold reports
  split
  · rfl
  · rfl
  · rw [converted_eq_nil h]
    rfl

theorem BindContext.exists_reported_of_mem_reports (h : e ∈ cx.reports bean p) :
    ∃ t raw e', Text.isBlank raw = false ∧ e' ∈ cx.converters.reported t cx.locale raw ∧
      e = e'.setField p.name (some raw) := by
  unfold reports at h
  split at h
  · cases h
  · cases h
  · obtain ⟨f, hf, rfl⟩ := List.mem_map.mp h
    obtain ⟨⟨t, raw⟩, htext, hf⟩ := List.mem_flatMap.mp hf
    obtain ⟨e', he', rfl⟩ := List.mem_map.mp hf
    exact ⟨t, raw, e', Schema.isBlank_of_mem_converted htext, he', rfl⟩

end Conversions

section Report

variable {cx : BindContext} {skip : String → Bool} {parameters : NameMap (List String)}
  {bean : Value} {name : String} {e : FieldError}

theorem exists_bean_of_mem_parameters {ps : List (String × List String)} {p : BoundParameter}
    (h : p ∈ (bindParameters cx skip ps bean).2.parameters) :
    ∃ start, p.errors.map (·.2) = cx.reports start p := by
  rw [parameters_bindParameters] at h
  obtain ⟨s, hs, rfl⟩ := List.mem_map.mp h
  exact ⟨s.1, BoundParameter.map_snd_errors (outcome_of_mem_bindingSteps hs)⟩

/-- The errors of conversions are what converters report of texts that are not blank. -/
theorem exists_reported_of_mem_under
    (h : e ∈ (bindParameters cx skip parameters.entries bean).2.errors.under name) :
    ∃ t raw e', Text.isBlank raw = false ∧ e' ∈ cx.converters.reported t cx.locale raw ∧
      e = e'.setField name (some raw) := by
  rw [(BindingReport.accounts_bindParameters cx skip parameters.nodup_names bean).under_errors,
    List.map_flatMap] at h
  obtain ⟨p, hp, he⟩ := List.mem_flatMap.mp h
  obtain ⟨hp, hname⟩ := List.mem_filter.mp hp
  obtain ⟨start, hreports⟩ := exists_bean_of_mem_parameters hp
  obtain rfl := beq_iff_eq.mp hname
  rw [hreports] at he
  exact BindContext.exists_reported_of_mem_reports he

/-- A name has no errors of conversions if the checks see it blank, or not at all. -/
theorem under_eq_nil_of_blank
    (h : name ∈ (bindParameters cx skip parameters.entries bean).2.fieldValues.names →
      allBlank ((bindParameters cx skip parameters.entries bean).2.fieldValues.values name) =
        true) :
    (bindParameters cx skip parameters.entries bean).2.errors.under name = [] := by
  have ha := BindingReport.accounts_bindParameters cx skip parameters.nodup_names bean
  rw [ha.under_errors, List.map_flatMap, List.flatMap_eq_nil_iff]
  intro p hmem
  obtain ⟨hp, hname⟩ := List.mem_filter.mp hmem
  obtain rfl := beq_iff_eq.mp hname
  have hblank := h ((BindingReport.mem_names_submitted_iff ha.nodup).mpr ⟨p, hp, rfl⟩)
  rw [BindingReport.values_fieldValues ha.nodup hp] at hblank
  obtain ⟨start, hreports⟩ := exists_bean_of_mem_parameters hp
  rw [hreports, BindContext.reports_eq_nil hblank]

end Report

/-! ## Built-in converters -/

/-- An answer says that a value is missing. -/
def ConversionResult.SaysMissing (r : ConversionResult) : Prop :=
  ∃ e ∈ r.errors, e.key? = Check.missing.key?

/-- The errors of conversions are others than that of a missing value. -/
theorem ConversionResult.Proper.not_saysMissing {t : ScalarType} {r : ConversionResult}
    (h : r.Proper t) : ¬ r.SaysMissing := by
  rintro ⟨e, he, hk⟩
  cases h with
  | @refused _ key hkey hkind =>
    obtain rfl := List.mem_singleton.mp he
    have hother : ∀ key ∈ conversionKeys, some key ≠ Check.missing.key? := by decide
    exact hother key hkey (hkind.symm.trans hk)
  | found | constant | nothing => cases he

/-- No built-in converter says that a value is missing. -/
theorem key?_of_reported_builtIn (l : Locale) (text : String) {t : ScalarType} {e : FieldError}
    (h : e ∈ ConverterRegistry.builtIn.reported t l text) : e.key? ≠ Check.missing.key? := by
  intro hk
  unfold ConverterRegistry.reported at h
  split at h
  · cases h
  · next c hc => exact (ConversionResult.proper_builtIn l text hc).not_saysMissing ⟨e, h, hk⟩

/-! ## Errors -/

/-- The errors of conversions, and behind them those of rules. -/
def RuleSet.checked (s : RuleSet) (r : BindingReport) (event : String) (scope : RequiredScope) :
    FieldErrors := r.errors.merge (s.validate r.fieldValues event scope)

theorem RuleSet.under_checked (s : RuleSet) (r : BindingReport) (event : String)
    (scope : RequiredScope) (name : String) :
    (s.checked r event scope).under name = r.errors.under name ++
      (((s.applicable event).flatMap fun c => c.errors r.fieldValues scope).filter
        (·.1 == name)).map fun x => x.2.inField x.1 := by
  unfold checked validate
  rw [FieldErrors.under_merge, FieldErrors.under_addAll, BindingReport.sorted_fieldValues]
  rfl

/-- **Missing values.** With one rule for a field, and fields without indexes, an error that says
that a value is missing is the only one under its name, unless it is one that a converter reports of
a text that is not blank. No built-in converter reports such an error. -/
theorem missing_alone {s : RuleSet} (hs : s.Distinct)
    (hf : ∀ c ∈ s.rules, fieldName c.field = c.field) (cx : BindContext) (skip : String → Bool)
    (parameters : NameMap (List String)) (bean : Value) (event : String) (scope : RequiredScope)
    {name : String} {e : FieldError}
    (he : e ∈ (s.checked (bindParameters cx skip parameters.entries bean).2 event scope).under name)
    (hk : e.key? = some "validation.required.valueNotPresent") :
    ((s.checked (bindParameters cx skip parameters.entries bean).2 event scope).under name = [e] ∨
      ∃ t raw e', Text.isBlank raw = false ∧ e' ∈ cx.converters.reported t cx.locale raw ∧
        e = e'.setField name (some raw)) ∧
    (cx.converters = .builtIn →
      (s.checked (bindParameters cx skip parameters.entries bean).2 event scope).under name =
        [e]) := by
  have halone : (s.checked (bindParameters cx skip parameters.entries bean).2 event scope).under
        name = [e] ∨
      ∃ t raw e', Text.isBlank raw = false ∧ e' ∈ cx.converters.reported t cx.locale raw ∧
        e = e'.setField name (some raw) := by
    rw [RuleSet.under_checked] at he ⊢
    rcases List.mem_append.mp he with he | he
    · exact .inr (exists_reported_of_mem_under he)
    · obtain ⟨⟨n, e'⟩, hmem, rfl⟩ := List.mem_map.mp he
      obtain ⟨hx, hname⟩ := List.mem_filter.mp hmem
      obtain rfl := beq_iff_eq.mp hname
      obtain ⟨hone, hblank⟩ :=
        RuleSet.alone_of_mem_applicable (e := e') hs hf (NameMap.nodup_names _) hx hk
      rw [under_eq_nil_of_blank hblank, hone]
      exact .inl rfl
  refine ⟨halone, fun hbuiltIn => halone.resolve_right ?_⟩
  rintro ⟨t, raw, e', -, hreported, rfl⟩
  rw [hbuiltIn] at hreported
  exact key?_of_reported_builtIn cx.locale raw hreported hk

/-- The rules of the two numbers of a calculator. -/
def numberRules : RuleSet :=
  ⟨[⟨{ field := "numberOne", required := true }, none⟩,
    ⟨{ field := "numberTwo", required := true }, none⟩]⟩

/-- The report on a first number that is blank; there is no second one. -/
def blankNumber : BindingReport :=
  (bindParameters (Sample.bindContext .builtIn .us) (fun _ => false)
    (NameMap.ofList [("numberOne", [" "])]).entries
    (.bean Sample.calculator.descriptor (Sample.calculator.fields?.getD []))).2

theorem missing_alone_blankNumber : Sample.calculator.rules = .ok numberRules ∧
    numberRules.Distinct ∧ (∀ c ∈ numberRules.rules, fieldName c.field = c.field) ∧
    (numberRules.checked blankNumber "addition" .all).under "numberOne" =
      [Check.missing.inField "numberOne"] ∧
    (numberRules.checked blankNumber "addition" .all).under "numberTwo" =
      [Check.missing.inField "numberTwo"] := by
  have hs : numberRules.Distinct :=
    BeanType.distinct_withRules (rfl : Sample.calculator.rules = .ok numberRules)
  have hf : ∀ c ∈ numberRules.rules, fieldName c.field = c.field := by decide +kernel
  have hone : Check.missing.inField "numberOne" ∈
      (numberRules.checked blankNumber "addition" .all).under "numberOne" := by decide +kernel
  have htwo : Check.missing.inField "numberTwo" ∈
      (numberRules.checked blankNumber "addition" .all).under "numberTwo" := by decide +kernel
  exact ⟨rfl, hs, hf, (missing_alone hs hf _ _ _ _ _ _ hone rfl).2 rfl,
    (missing_alone hs hf _ _ _ _ _ _ htwo rfl).2 rfl⟩

/-- Converters of which the one of texts asks for a value whatever the text. -/
def demandingConverters : ConverterRegistry :=
  ConverterRegistry.empty.add .text fun _ _ => { errors := [Check.missing] }

/-- The rule of a name, which must not be short. -/
def longNames : RuleSet := ⟨[⟨{ field := "username", minLength := some 5 }, none⟩]⟩

/-- The report on a short name. -/
def shortName : BindingReport :=
  (bindParameters (Sample.bindContext demandingConverters .us) (fun _ => false)
    (NameMap.ofList [("username", ["ab"])]).entries
    (.bean Sample.person.descriptor (Sample.person.fields?.getD []))).2

/-- What a converter says of a text is not kept from standing beside the errors of rules. -/
theorem missing_beside_tooShort : longNames.Distinct ∧
    (∀ c ∈ longNames.rules, fieldName c.field = c.field) ∧
    ((longNames.checked shortName "save" .all).under "username").map FieldError.key? =
      [some "validation.required.valueNotPresent", some "validation.minlength.valueTooShort"] := by
  decide +kernel

end Formwork
