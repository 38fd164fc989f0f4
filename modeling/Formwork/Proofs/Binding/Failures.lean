import Formwork.Proofs.Binding.Report
import Formwork.Proofs.Text.Blank

/-!
# The failures of a conversion

- **Assignments** (`failures_assignment`): an assignment hands some of the submitted texts to
  converters (`Schema.converted`), a single value its first text that is not blank, a sequence each
  of them. Its failures are the errors that the converters report of these texts, in the order of
  the texts and in the order of the report on each.
- **Parameters** (`BoundParameter.map_snd_errors`): the errors of a parameter are those that the
  converters report of its texts.
-/

namespace Formwork

/-- The errors that the converter of a type reports of a text. -/
def ConverterRegistry.reported (r : ConverterRegistry) (t : ScalarType) (l : Locale)
    (text : String) : List FieldError :=
  match r.converter? t with
  | none => []
  | some c => (c l text).errors

/-- The texts that an assignment to a property of a type hands to converters, with the types that
they are to be converted to. -/
def Schema.converted : Schema → List String → List (ScalarType × String)
  | .scalar t, values =>
    (((values.map Text.trim).find? fun v => !v.isEmpty).map fun raw => (t, raw)).toList
  | .option inner, values | .box inner, values => inner.converted values
  | .sequence element, values => (filledIn values).flatMap fun v => element.converted [v]
  | .map _ _, _ | .bean _, _ => []

/-! ## Assignments -/

/-- The failures of the texts that an assignment hands to converters. -/
def BindContext.failuresOf (cx : BindContext) (texts : List (ScalarType × String)) :
    List ConversionFailure :=
  texts.flatMap fun x => (cx.converters.reported x.1 cx.locale x.2).map fun e => ⟨x.2, e⟩

/-- A conversion answers with the errors that were reported, and with a value only if there are
none. -/
theorem ConverterRegistry.reported_of_convert {r : ConverterRegistry} {t : ScalarType} {l : Locale}
    {text : String} {value : Option Scalar} {errors : List FieldError}
    (h : r.convert t l text [] = .ok (value, errors)) :
    errors = r.reported t l text ∧ (value.isSome = true → errors = []) := by
  unfold convert at h
  cases hc : r.converter? t with
  | none =>
    rw [hc] at h
    cases h
  | some c =>
    have hreported : r.reported t l text = (c l text).errors := by simp only [reported, hc]
    simp only [hc] at h
    rw [hreported]
    by_cases he : (c l text).errors = []
    · rw [he] at h ⊢
      simp only [List.isEmpty_nil, Bool.not_true, Bool.false_eq_true, ↓reduceIte] at h
      split at h
      · cases h
        exact ⟨rfl, fun _ => rfl⟩
      · split at h
        · cases h
          exact ⟨rfl, fun _ => rfl⟩
        · cases h
    · have hsome : (!(c l text).errors.isEmpty) = true := by simpa using he
      rw [if_pos hsome] at h
      cases h
      exact ⟨rfl, fun hv => Bool.noConfusion hv⟩

namespace BindContext

variable {cx : BindContext}

theorem failures_assignScalar {t : ScalarType} {values : List String} {a : Assignment}
    (h : cx.assignScalar t values = .ok a) :
    a.failures = cx.failuresOf ((Schema.scalar t).converted values) := by
  unfold assignScalar at h
  unfold Schema.converted failuresOf
  cases hraw : (values.map Text.trim).find? fun v => !v.isEmpty with
  | none =>
    rw [hraw] at h
    cases h
    rfl
  | some raw =>
    simp only [hraw] at h
    simp only [Option.map_some, Option.toList_some, List.flatMap_singleton]
    cases hc : cx.converters.convert t cx.locale raw [] with
    | error e =>
      rw [hc] at h
      cases h
    | ok answer =>
      obtain ⟨value, errors⟩ := answer
      obtain ⟨hreported, hvalue⟩ := ConverterRegistry.reported_of_convert hc
      rw [hc] at h
      rw [← hreported]
      cases value with
      | some s =>
        cases h
        rw [hvalue rfl]
        rfl
      | none =>
        cases errors with
        | nil =>
          cases h
          rfl
        | cons e rest =>
          cases h
          rfl

/-- Blank values are not converted. -/
theorem converted_eq_nil {s : Schema} {values : List String} (h : allBlank values = true) :
    s.converted values = [] := by
  induction s with
  | scalar t =>
    rw [Schema.converted, find?_trim, filledIn_eq_nil h]
    rfl
  | option inner ih => exact ih
  | box inner ih => exact ih
  | sequence element ih =>
    rw [Schema.converted, filledIn_eq_nil h, List.flatMap_nil]
  | map kind element ih => rfl
  | bean name => rfl

theorem failures_map {f : Value → Value} {a : Assignment} : (a.map f).failures = a.failures := by
  cases a <;> rfl

theorem failures_assignedItems {element : Schema} {fresh : Value} {parts : List Assignment} :
    (assignedItems element fresh parts).failures = parts.flatMap Assignment.failures := by
  unfold assignedItems
  dsimp only
  split
  · next h => exact (List.isEmpty_iff.mp h).symm
  · rfl

/-- **Failures.** What fails in an assignment is what the converters report of the texts that they
were given, in order. -/
theorem failures_assignment {s : Schema} {values : List String} {a : Assignment}
    (h : cx.assignment s values = .ok a) : a.failures = cx.failuresOf (s.converted values) := by
  induction s generalizing a values with
  | scalar t => exact failures_assignScalar h
  | option inner ih =>
    simp only [assignment] at h
    by_cases hb : allBlank values = true
    · rw [if_pos hb] at h
      cases h
      rw [converted_eq_nil hb]
      rfl
    · rw [if_neg hb] at h
      cases hf : cx.initial? inner with
      | none =>
        rw [hf] at h
        cases h
      | some fresh =>
        simp only [hf] at h
        obtain ⟨b, hassigned, rfl⟩ := map_eq_ok.mp h
        have hfailures := ih hassigned
        cases b <;> exact hfailures
  | box inner ih =>
    obtain ⟨b, hassigned, rfl⟩ := map_eq_ok.mp h
    rw [failures_map]
    exact ih hassigned
  | sequence element ih =>
    simp only [assignment] at h
    split at h
    · next hnone =>
      cases h
      rw [Schema.converted, filledIn, hnone]
      rfl
    · cases h
    · next submitted fresh _ hs _ =>
      obtain ⟨parts, hparts, rfl⟩ := map_eq_ok.mp h
      rw [failures_assignedItems, failuresOf, Schema.converted, List.flatMap_assoc]
      exact flatMap_eq_of_forall₂ (mapM_eq_ok_iff.mp hparts) fun v b hb => ih hb
  | map kind element ih => cases h
  | bean name => cases h

end BindContext

/-! ## Parameters -/

/-- The type of the property that a parameter names, if its path reaches one. -/
def BindContext.target? (cx : BindContext) (bean : Value) (name : String) : Option Schema :=
  match PropertyPath.parse name with
  | .error _ => none
  | .ok path =>
    match Value.reach cx path.segments bean with
    | .error _ => none
    | .ok leaf => some leaf.schema

/-- The errors that the converters report of the texts of a parameter, with its name and the texts.
A parameter that was refused has none. -/
def BindContext.reports (cx : BindContext) (bean : Value) (p : BoundParameter) : List FieldError :=
  match p.outcome, cx.target? bean p.name with
  | .refused _, _ | _, none => []
  | _, some s =>
    (cx.failuresOf (s.converted p.values)).map fun f => f.error.setField p.name (some f.value)

/-- The errors of a parameter are what the converters report of its texts. -/
theorem BoundParameter.map_snd_errors {cx : BindContext} {bean : Value} {p : BoundParameter}
    (h : p.outcome = (bindParameter cx p.name p.values bean).2) :
    p.errors.map (·.2) = cx.reports bean p := by
  unfold bindParameter at h
  unfold errors BindContext.reports BindContext.target?
  cases hpath : PropertyPath.parse p.name with
  | error e =>
    rw [hpath] at h
    rw [h]
    rfl
  | ok path =>
    obtain ⟨w, result, hb⟩ : ∃ w result, bean.bind cx p.values path.segments = (w, result) :=
      ⟨_, _, rfl⟩
    simp only [hpath, hb] at h
    cases result with
    | error e =>
      rw [h]
      rfl
    | ok failures =>
      obtain ⟨leaf, changed, hreach, hassign, -⟩ := Value.resolve_bind hb
      obtain ⟨a, ha, he⟩ := map_eq_ok.mp hassign
      obtain ⟨-, rfl⟩ := Prod.mk.inj he
      have hof := BindContext.failures_assignment ha
      simp only [hreach]
      cases hf : a.failures with
      | nil =>
        simp only [hf] at h
        simp only [h, ← hof, hf, List.map_nil]
      | cons f rest =>
        simp only [hf] at h
        simp only [h, ← hof, hf, BindingReport.failureErrors, List.map_map]
        rfl

end Formwork
