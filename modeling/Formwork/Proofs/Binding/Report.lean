import Formwork.Binding
import Formwork.Proofs.NameMap
import Formwork.Proofs.Property.Binding
import Formwork.Proofs.Property.Numbers

/-!
# The report on a request

- **Steps** (`bindingSteps`): the parameters one after the other, each with the bean that it was
  bound to. The report has what came of them, in order (`parameters_bindParameters`).
- **Look-ups** (`find?_eq_some`): with distinct names, what the report says of a name is what came
  of its parameter.
- **Errors** (`BoundParameter.errors`): those of the conversions, under the names of the parameters.
- **Numbers** (`length_numbers_of_bound`): a parameter that was bound has no more numbers than
  values that are not blank. They are those of what it was assigned (`bound_of_bindParameter`,
  `outcome_of_assign`).
-/

namespace Formwork

variable {cx : BindContext}

/-! ## Steps -/

/-- Binds parameters one after the other: for each, the bean that it was bound to, and what came of
it. -/
def bindingSteps (cx : BindContext) :
    List (String × List String) → Value → List (Value × BoundParameter)
  | [], _ => []
  | p :: rest, bean =>
    let values := p.2.map Text.trim
    let (next, outcome) := bindParameter cx p.1 values bean
    (bean, ⟨p.1, values, outcome⟩) :: bindingSteps cx rest next

theorem parameters_foldl_bindNext (entries : List (String × List String))
    (state : Value × BindingReport) :
    (entries.foldl (bindNext cx) state).2.parameters =
      state.2.parameters ++ (bindingSteps cx entries state.1).map (·.2) := by
  induction entries generalizing state with
  | nil => simp [bindingSteps]
  | cons p rest ih =>
    rw [List.foldl_cons, ih]
    simp [bindNext, bindingSteps, BindingReport.record]

/-- The report of the parameters that are not skipped. -/
theorem parameters_bindParameters (skip : String → Bool) (entries : List (String × List String))
    (bean : Value) : (bindParameters cx skip entries bean).2.parameters =
      (bindingSteps cx (entries.filter fun p => !skip p.1) bean).map (·.2) :=
  parameters_foldl_bindNext _ _

theorem pairs_bindingSteps (entries : List (String × List String)) (bean : Value) :
    (bindingSteps cx entries bean).map (fun s => (s.2.name, s.2.values)) =
      entries.map fun p => (p.1, p.2.map Text.trim) := by
  induction entries generalizing bean with
  | nil => rfl
  | cons p rest ih =>
    rw [bindingSteps]
    simp only [List.map_cons, ih]

theorem names_bindingSteps (entries : List (String × List String)) (bean : Value) :
    (bindingSteps cx entries bean).map (·.2.name) = entries.map (·.1) := by
  have hpairs : ((bindingSteps cx entries bean).map fun s => (s.2.name, s.2.values)).map (·.1) =
      (entries.map fun p => (p.1, p.2.map Text.trim)).map (·.1) :=
    congrArg (List.map (·.1)) (pairs_bindingSteps entries bean)
  rwa [List.map_map, List.map_map] at hpairs

theorem values_of_mem_bindingSteps {entries : List (String × List String)} {start : Value}
    {s : Value × BoundParameter} (h : s ∈ bindingSteps cx entries start) :
    ∃ values, (s.2.name, values) ∈ entries ∧ s.2.values = values.map Text.trim := by
  induction entries generalizing start with
  | nil => cases h
  | cons p rest ih =>
    rw [bindingSteps] at h
    rcases h with _ | ⟨_, h⟩
    · exact ⟨p.2, List.mem_cons_self .., rfl⟩
    · obtain ⟨values, hm, he⟩ := ih h
      exact ⟨values, List.mem_cons_of_mem _ hm, he⟩

theorem outcome_of_mem_bindingSteps {entries : List (String × List String)} {start : Value}
    {s : Value × BoundParameter} (h : s ∈ bindingSteps cx entries start) :
    s.2.outcome = (bindParameter cx s.2.name s.2.values s.1).2 := by
  induction entries generalizing start with
  | nil => cases h
  | cons p rest ih =>
    rw [bindingSteps] at h
    rcases h with _ | ⟨_, h⟩
    · rfl
    · exact ih h

/-! ## Look-ups -/

namespace BindingReport

variable {r : BindingReport} {p : BoundParameter}

theorem find?_eq_some (hn : (r.parameters.map (·.name)).Nodup) (h : p ∈ r.parameters) :
    r.find? p.name = some p := (find?_key_eq_some_iff hn).mpr ⟨h, rfl⟩

theorem submitted_eq_some (hn : (r.parameters.map (·.name)).Nodup) (h : p ∈ r.parameters) :
    r.submitted.get? p.name = some p.values := by
  unfold submitted
  rw [NameMap.get?_ofList]
  · exact List.mem_map.mpr ⟨p, h, rfl⟩
  · rwa [List.map_map]

theorem mem_names_submitted_iff (hn : (r.parameters.map (·.name)).Nodup) {name : String} :
    name ∈ r.submitted.names ↔ ∃ p ∈ r.parameters, p.name = name := by
  rw [NameMap.mem_names_iff, Option.isSome_iff_exists]
  constructor
  · rintro ⟨values, hv⟩
    unfold submitted at hv
    rw [NameMap.get?_ofList (by rwa [List.map_map])] at hv
    obtain ⟨p, hp, he⟩ := List.mem_map.mp hv
    exact ⟨p, hp, congrArg Prod.fst he⟩
  · rintro ⟨p, hp, rfl⟩
    exact ⟨p.values, submitted_eq_some hn hp⟩

theorem values_fieldValues (hn : (r.parameters.map (·.name)).Nodup) (h : p ∈ r.parameters) :
    r.fieldValues.values p.name = p.values := by
  show (r.submitted.get? p.name).getD [] = p.values
  rw [submitted_eq_some hn h, Option.getD_some]

/-- The checks see the parameters in ascending order already. -/
theorem sorted_fieldValues (r : BindingReport) : r.fieldValues.sorted = r.fieldValues := by
  have hascending : r.submitted.names.Pairwise fun a b => decide (a ≤ b) = true := by
    unfold NameMap.names
    rw [List.pairwise_map]
    refine r.submitted.ascending.imp fun hlt => decide_eq_true ?_
    exact String.not_lt.mp (String.lt_asymm hlt)
  unfold FieldValues.sorted
  have hnames : r.fieldValues.names = r.submitted.names := rfl
  rw [hnames, List.mergeSort_of_pairwise hascending]
  rfl

theorem numbers_of_bound (hn : (r.parameters.map (·.name)).Nodup) (h : p ∈ r.parameters)
    {numbers : List Float} (hb : p.outcome = .bound numbers) : r.numbers p.name = numbers := by
  unfold BindingReport.numbers
  rw [find?_eq_some hn h, Option.map_some, hb]

theorem conversionFailed_of_bound (hn : (r.parameters.map (·.name)).Nodup)
    (h : p ∈ r.parameters) {numbers : List Float} (hb : p.outcome = .bound numbers) :
    r.conversionFailed p.name = false := by
  unfold conversionFailed
  rw [find?_eq_some hn h, Option.any_some, hb]

end BindingReport

/-! ## Errors -/

/-- The errors that a report gets with a parameter. -/
def BoundParameter.errors (p : BoundParameter) : List (String × FieldError) :=
  match p.outcome with
  | .failed failures => BindingReport.failureErrors p.name failures
  | _ => []

theorem BindingReport.record_errors (r : BindingReport) (p : BoundParameter) :
    (r.record p).errors = r.errors.addAll p.errors := by
  unfold BindingReport.record BoundParameter.errors
  cases p.outcome <;> rfl

/-! ## Numbers -/

/-- A parameter that was bound names a path, and its numbers are those of what it was assigned. -/
theorem bound_of_bindParameter {name : String} {values : List String} {bean : Value}
    {numbers : List Float} (h : (bindParameter cx name values bean).2 = .bound numbers) :
    ∃ path leaf changed, PropertyPath.parse name = .ok path ∧
      Value.reach cx path.segments bean = .ok leaf ∧
      leaf.assign cx values = .ok (changed, []) ∧ numbers = changed.numbers := by
  unfold bindParameter at h
  cases hp : PropertyPath.parse name with
  | error e =>
    rw [hp] at h
    cases h
  | ok path =>
    simp only [hp] at h
    split at h
    · cases h
    · next next hb =>
      obtain ⟨leaf, changed, hreach, ha, hr⟩ := Value.resolve_bind hb
      cases h
      exact ⟨path, leaf, changed, rfl, hreach, ha, by simp [hr]⟩
    · cases h

/-- A parameter whose path reaches a value that takes its values is bound. -/
theorem outcome_of_assign {name : String} {values : List String} {bean leaf changed : Value}
    {path : PropertyPath} (hp : PropertyPath.parse name = .ok path)
    (hreach : Value.reach cx path.segments bean = .ok leaf)
    (ha : leaf.assign cx values = .ok (changed, [])) :
    (bindParameter cx name values bean).2 = .bound changed.numbers := by
  have hresult : (bean.bind cx values path.segments).2 = .ok [] := by
    rw [Value.bind, Value.snd_descend hreach, Value.assigned, ha]
  obtain ⟨w, hb⟩ : ∃ w, bean.bind cx values path.segments = (w, .ok []) :=
    ⟨_, Prod.ext rfl hresult⟩
  obtain ⟨leaf', changed', hreach', ha', hr⟩ := Value.resolve_bind hb
  obtain rfl := Except.ok.inj (hreach.symm.trans hreach')
  obtain ⟨rfl, -⟩ := Prod.mk.inj (Except.ok.inj (ha.symm.trans ha'))
  simp only [bindParameter, hp, hb, hr, Option.map_some, Option.getD_some]

theorem length_numbers_of_bound {name : String} {values : List String} {bean : Value}
    {numbers : List Float} (h : (bindParameter cx name values bean).2 = .bound numbers)
    (hb : allBlank values = false) : numbers.length ≤ (filledIn values).length := by
  obtain ⟨path, leaf, changed, -, -, ha, rfl⟩ := bound_of_bindParameter h
  exact Value.length_numbers_assign ha hb

end Formwork
