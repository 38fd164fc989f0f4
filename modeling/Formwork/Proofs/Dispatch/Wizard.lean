import Formwork.Proofs.Binding.Required
import Formwork.Proofs.Dispatch.Redisplay

/-!
# Required fields of a page of a wizard

- **Rules** (`CompiledRule.exists_missing_mem_errors_iff`): a rule says of a parameter that its value
  is missing if it was submitted without one, or if no parameter of the field was submitted and the
  field may be asked for. Which fields may be asked for counts in the second case only.
- **Pages** (`Dispatcher.requiredScope_of_listed`): the page of a wizard asks for the fields that it
  lists.
- **Errors** (`Dispatcher.wizard_missing`): so a field that was left out is reported only if the
  page lists it, and one that was submitted without a value is reported on every page. No other
  error says that a value is missing, unless a converter, a validator or the handler says it.
-/

namespace Formwork

/-! ## Rules -/

/-- The key of the error that a value is missing. -/
def FieldError.IsMissing (e : FieldError) : Prop :=
  e.key? = some "validation.required.valueNotPresent"

namespace CompiledRule

variable {c : CompiledRule} {v : FieldValues} {name : String} {e : FieldError}

theorem eq_missing_of_mem_parameterErrors (h : e ∈ c.parameterErrors v name)
    (hk : e.IsMissing) : e = Check.missing := by
  obtain ⟨hb, -⟩ := alone_of_mem_parameterErrors h hk
  have hall : (v.values name).all Text.isBlank = true := hb
  unfold parameterErrors Check.required at h
  simp only [hall, ↓reduceIte] at h
  split at h
  · exact List.mem_singleton.mp h
  · cases h

theorem exists_missing_mem_parameterErrors_iff :
    (∃ e ∈ c.parameterErrors v name, e.IsMissing) ↔
      c.rule.required = true ∧ allBlank (v.values name) = true ∧ v.isBlankRow name = false := by
  rw [← missing_mem_parameterErrors_iff]
  constructor
  · rintro ⟨e, he, hk⟩
    rwa [eq_missing_of_mem_parameterErrors he hk] at he
  · intro h
    exact ⟨_, h, rfl⟩

/-- A rule says that the value of a parameter is missing iff the parameter is of its field and was
submitted without a value, in a row that is not blank all over, or it is the field itself, no
parameter of the field was submitted, and the field may be asked for. -/
theorem exists_missing_mem_errors_iff {scope : RequiredScope} :
    (∃ e, (name, e) ∈ c.errors v scope ∧ e.IsMissing) ↔ c.rule.required = true ∧
      ((name ∈ v.names ∧ fieldName name = c.field ∧ allBlank (v.values name) = true ∧
          v.isBlankRow name = false) ∨
        (name = c.field ∧ scope.requires c.field = true ∧
          ∀ n ∈ v.names, fieldName n ≠ c.field)) := by
  unfold errors
  split
  · next hnil =>
    have hnone : ∀ n ∈ v.names, fieldName n ≠ c.field := fun n hn => by
      simpa using List.filter_eq_nil_iff.mp hnil n hn
    constructor
    · rintro ⟨e, he, -⟩
      split at he
      · next hr =>
        rw [Bool.and_eq_true] at hr
        cases List.mem_singleton.mp he
        exact ⟨hr.1, .inr ⟨rfl, hr.2, hnone⟩⟩
      · cases he
    · rintro ⟨hr, ⟨hm, hf, -⟩ | ⟨rfl, hs, -⟩⟩
      · exact absurd hf (hnone name hm)
      · rw [hr, hs]
        exact ⟨Check.missing, List.mem_singleton_self _, rfl⟩
  · next hne =>
    have hsome : ¬ ∀ n ∈ v.names, fieldName n ≠ c.field := fun hnone =>
      hne (List.filter_eq_nil_iff.mpr fun n hn => by simpa using hnone n hn)
    simp only [hsome, and_false, or_false]
    constructor
    · rintro ⟨e, he, hk⟩
      obtain ⟨n, hn, hx⟩ := List.mem_flatMap.mp he
      obtain ⟨e', he', hx⟩ := List.mem_map.mp hx
      cases hx
      obtain ⟨hm, hf⟩ := List.mem_filter.mp hn
      obtain ⟨hr, hb, hrow⟩ := exists_missing_mem_parameterErrors_iff.mp ⟨_, he', hk⟩
      exact ⟨hr, hm, beq_iff_eq.mp hf, hb, hrow⟩
    · rintro ⟨hr, hm, hf, hb, hrow⟩
      obtain ⟨e, he, hk⟩ := exists_missing_mem_parameterErrors_iff.mpr ⟨hr, hb, hrow⟩
      refine ⟨e, List.mem_flatMap.mpr ⟨name, ?_, List.mem_map.mpr ⟨e, he, rfl⟩⟩, hk⟩
      exact List.mem_filter.mpr ⟨hm, beq_iff_eq.mpr hf⟩

end CompiledRule

/-! ## Validators -/

namespace CustomValidator

variable {β : Type}

/-- The validator puts an error under a field that had not got it before. -/
def Puts (v : CustomValidator β) (bean : β) (errors : FieldErrors) (field : String)
    (e : FieldError) : Prop :=
  e ∈ (v.check bean errors).under field ∧ e ∉ errors.under field

/-- An error after all validators was there before them, or one of them put it there. -/
theorem mem_under_runAll {validators : List (CustomValidator β)} {bean : β} {event : String}
    {errors : FieldErrors} {field : String} {e : FieldError}
    (h : e ∈ (runAll validators bean event errors).under field) :
    e ∈ errors.under field ∨
      ∃ m ∈ met bean event validators errors, m.1.Puts bean m.2 field e := by
  induction validators generalizing errors with
  | nil => exact .inl h
  | cons v rest ih =>
    unfold met
    by_cases hr : v.runs event errors = true
    · rw [runAll_cons_of_runs hr] at h
      rw [if_pos hr]
      rcases ih h with he | ⟨m, hm, hputs⟩
      · by_cases hold : e ∈ errors.under field
        · exact .inl hold
        · exact .inr ⟨(v, errors), List.mem_cons_self .., he, hold⟩
      · exact .inr ⟨m, List.mem_cons_of_mem _ hm, hputs⟩
    · rw [runAll_cons_of_not_runs hr] at h
      rw [if_neg hr]
      exact ih h

end CustomValidator

/-! ## Pages -/

/-- A rule that counts for the event asks for a value of the field. -/
def ResolvedRequest.Requires (r : ResolvedRequest) (field : String) : Prop :=
  ∃ c ∈ r.rules.applicable r.handler.event, c.rule.required = true ∧ c.field = field

namespace Dispatcher

variable {d : Dispatcher} {request : Request} {r : ResolvedRequest} {name : String}
  {e : FieldError}

/-- The parameters that a page lists. -/
def listed (d : Dispatcher) (r : ResolvedRequest) : List String :=
  ((r.parameters.get? d.settings.fieldsPresentParameter).getD []).flatMap
    fun text => (d.manifest.decode text).getD []

theorem requiredScope_of_listed (hw : r.action.wizard = true) (hl : d.listed r ≠ [])
    (bound : BindingReport) : d.requiredScope r bound = .ofManifest (d.listed r) := by
  unfold requiredScope
  rw [if_pos hw]
  exact if_neg fun h => hl (List.isEmpty_iff.mp h)

/-- The page lists a parameter of the field of this one. -/
def OnPage (d : Dispatcher) (r : ResolvedRequest) (name : String) : Prop :=
  fieldName name ∈ (d.listed r).map fieldName

/-- The parameter was submitted, and is bound. -/
def Submits (d : Dispatcher) (r : ResolvedRequest) (name : String) : Prop :=
  name ∈ r.parameters.names ∧ d.skips r.action name = false

theorem mem_names_report_iff :
    name ∈ (d.report request r).fieldValues.names ↔ d.Submits r name := by
  have hnames : (d.steps request r).map (·.2.name) = (d.bindable r).map (·.1) :=
    names_bindingSteps _ _
  have hparameters : (d.report request r).parameters.map (·.name) =
      (d.bindable r).map (·.1) := by
    rw [parameters_report, List.map_map, ← hnames]
    rfl
  have hmem : name ∈ (d.report request r).submitted.names ↔ name ∈ (d.bindable r).map (·.1) := by
    rw [BindingReport.mem_names_submitted_iff nodup_parameters_report, ← hparameters,
      List.mem_map]
  refine hmem.trans ?_
  unfold bindable Submits NameMap.names
  simp only [List.mem_map, List.mem_filter, Bool.not_eq_true']
  constructor
  · rintro ⟨p, ⟨hp, hs⟩, rfl⟩
    exact ⟨⟨p, hp, rfl⟩, hs⟩
  · rintro ⟨⟨p, hp, rfl⟩, hs⟩
    exact ⟨p, ⟨hp, hs⟩, rfl⟩

theorem allBlank_values_report (h : d.Submits r name) :
    allBlank ((d.report request r).fieldValues.values name) =
      allBlank ((r.parameters.get? name).getD []) := by
  have hname : name ∈ (d.report request r).submitted.names := mem_names_report_iff.mpr h
  obtain ⟨p, hp, rfl⟩ := (BindingReport.mem_names_submitted_iff nodup_parameters_report).mp hname
  obtain ⟨values, hv⟩ := Option.isSome_iff_exists.mp (NameMap.mem_names_iff.mp h.1)
  have hvalues : p.values = values.map Text.trim := by
    rw [parameters_report] at hp
    obtain ⟨s, hs, rfl⟩ := List.mem_map.mp hp
    exact values_of_mem_steps hs hv
  rw [BindingReport.values_fieldValues nodup_parameters_report hp, hvalues, allBlank_map_trim, hv,
    Option.getD_some]

/-- The parameter was submitted without a value, in a row that is not blank all over, although a
value is asked for. -/
def LeftBlank (d : Dispatcher) (request : Request) (r : ResolvedRequest) (name : String) : Prop :=
  r.Requires (fieldName name) ∧ d.Submits r name ∧
    allBlank ((r.parameters.get? name).getD []) = true ∧
    (d.report request r).fieldValues.isBlankRow name = false

/-- No parameter of the field was submitted, although a value is asked for. -/
def LeftOut (d : Dispatcher) (r : ResolvedRequest) (field : String) : Prop :=
  r.Requires field ∧ ∀ name, d.Submits r name → fieldName name ≠ field

/-- The rules say that a value is missing iff the parameter was left blank, or it is a field that
was left out and that the page lists. -/
theorem exists_missing_mem_ruleErrors_iff (hw : r.action.wizard = true) (hl : d.listed r ≠ []) :
    (∃ e ∈ d.ruleErrors request r name, e.IsMissing) ↔ d.LeftBlank request r name ∨
      (d.LeftOut r name ∧ name ∈ (d.listed r).map fieldName) := by
  have hrules : (∃ e ∈ d.ruleErrors request r name, e.IsMissing) ↔
      ∃ c ∈ r.rules.applicable r.handler.event, ∃ e, (name, e) ∈
        c.errors (d.report request r).fieldValues (.ofManifest (d.listed r)) ∧ e.IsMissing := by
    unfold ruleErrors
    rw [requiredScope_of_listed hw hl]
    constructor
    · rintro ⟨_, he, hk⟩
      obtain ⟨⟨n, e⟩, hmem, rfl⟩ := List.mem_map.mp he
      obtain ⟨hx, hn⟩ := List.mem_filter.mp hmem
      obtain rfl := beq_iff_eq.mp hn
      obtain ⟨c, hc, he⟩ := List.mem_flatMap.mp hx
      exact ⟨c, hc, e, he, hk⟩
    · rintro ⟨c, hc, e, hx, hk⟩
      refine ⟨e.inField name, List.mem_map.mpr ⟨(name, e), ?_, rfl⟩, hk⟩
      exact List.mem_filter.mpr ⟨List.mem_flatMap.mpr ⟨c, hc, hx⟩, beq_self_eq_true name⟩
  rw [hrules]
  simp only [CompiledRule.exists_missing_mem_errors_iff, mem_names_report_iff]
  constructor
  · rintro ⟨c, hc, hr, ⟨hs, hf, hb, hrow⟩ | ⟨rfl, hlisted, hnone⟩⟩
    · exact .inl ⟨⟨c, hc, hr, hf.symm⟩, hs, allBlank_values_report hs ▸ hb, hrow⟩
    · exact .inr ⟨⟨⟨c, hc, hr, rfl⟩, hnone⟩, List.contains_iff_mem.mp hlisted⟩
  · rintro (⟨⟨c, hc, hr, hf⟩, hs, hb, hrow⟩ | ⟨⟨⟨c, hc, hr, rfl⟩, hnone⟩, hlisted⟩)
    · exact ⟨c, hc, hr, .inl ⟨hs, hf.symm, (allBlank_values_report hs).trans hb, hrow⟩⟩
    · exact ⟨c, hc, hr, .inr ⟨rfl, List.contains_iff_mem.mpr hlisted, hnone⟩⟩

/-- The rules say that a value is missing of fields of the page only, and of parameters that were
left blank. -/
theorem onPage_of_mem_ruleErrors (hw : r.action.wizard = true) (hl : d.listed r ≠ [])
    (he : e ∈ d.ruleErrors request r name) (hk : e.IsMissing) :
    d.OnPage r name ∨ d.LeftBlank request r name := by
  rcases (exists_missing_mem_ruleErrors_iff hw hl).mp ⟨e, he, hk⟩ with hblank | ⟨-, hlisted⟩
  · exact .inr hblank
  · obtain ⟨entry, hentry, rfl⟩ := List.mem_map.mp hlisted
    refine .inl (List.mem_map.mpr ⟨entry, hentry, ?_⟩)
    rw [fieldName_fieldName]

/-! ## Errors -/

/-- A converter that is not built in reports the error, a validator puts it under the name, or the
handler does. -/
inductive SaidElsewhere (d : Dispatcher) (request : Request) (r : ResolvedRequest)
    (name : String) (e : FieldError) : Prop where
  | converter : d.converters ≠ .builtIn → e ∈ d.conversionErrors request r name →
    SaidElsewhere d request r name e
  | validator {v : CustomValidator Value} {errors : FieldErrors} :
    (v, errors) ∈ CustomValidator.met (d.prepare request r).bean r.handler.event
      r.action.validators (d.checked request r) →
    v.Puts (d.prepare request r).bean errors name e → SaidElsewhere d request r name e
  | handler {outcome : Outcome} {bean : Value} {cx : ActionContext} :
    d.answer request r = .ok (outcome, bean, cx) → e ∈ cx.errors.under name →
    e ∉ (d.prepare request r).errors.under name → SaidElsewhere d request r name e

theorem key?_of_mem_conversionErrors (hb : d.converters = .builtIn)
    (he : e ∈ d.conversionErrors request r name) : ¬ e.IsMissing := by
  rw [← under_report] at he
  obtain ⟨t, raw, e', -, hreported, rfl⟩ := exists_reported_of_mem_under he
  have hcx : (d.bindContext request).converters = .builtIn := hb
  rw [hcx] at hreported
  exact fun hk => key?_of_reported_builtIn _ raw hreported hk

theorem mem_under_prepare (he : e ∈ (d.prepare request r).errors.under name) (hk : e.IsMissing) :
    e ∈ d.ruleErrors request r name ∨ d.SaidElsewhere request r name e := by
  have hconversion : e ∈ d.conversionErrors request r name →
      d.SaidElsewhere request r name e := fun hc =>
    .converter (fun hb => key?_of_mem_conversionErrors hb hc hk) hc
  rw [prepare_errors] at he
  unfold validate at he
  split at he
  · rw [under_report] at he
    exact .inr (hconversion he)
  · rcases CustomValidator.mem_under_runAll he with he | ⟨⟨v, errors⟩, hm, hputs⟩
    · have he : e ∈ (d.checked request r).under name := he
      rw [under_checked, List.mem_append] at he
      exact he.symm.imp_right hconversion
    · exact .inr (.validator hm hputs)

/-- The errors of a result are those after validation, those that the handler left, or none. -/
theorem errors_of_result (hr : d.resolve request = .ok r) {result : DispatchResult}
    (h : (d.dispatch request).result = .ok result) :
    result.errors = (d.prepare request r).errors ∨
      (∃ outcome bean cx, d.answer request r = .ok (outcome, bean, cx) ∧
        result.errors = cx.errors) ∨ result.errors = .empty := by
  rw [dispatch_result_eq] at h
  obtain ⟨f, hr', -⟩ | ⟨r', hr', hways⟩ := run_cases d request
  · cases hr.symm.trans hr'
  obtain rfl := Except.ok.inj (hr.symm.trans hr')
  rcases hways with ⟨-, hrun⟩ | ⟨-, ⟨f, -, hrun⟩ | ⟨answered, hi, hrun⟩⟩
  · rw [hrun] at h
    cases h
    exact .inl rfl
  · rw [hrun] at h
    dsimp only [recover] at h
    split at h
    · cases h
      exact .inr (.inr rfl)
    · cases h
  · rw [hrun] at h
    cases h
    unfold ResolvedRequest.invoke at hi
    dsimp only at hi
    split at hi
    · cases hi
    · next outcome bean cx hanswer =>
      cases hi
      exact .inr (.inl ⟨outcome, bean, cx, hanswer, rfl⟩)

/-- **Required fields of a page.** Let a request go to a wizard, with a page that lists fields. The
rules say that a value is missing of the parameters that were left blank, whatever the page lists,
and of the fields that were left out and that the page lists. So what the result says to be missing
is of the page, or was left blank; or a converter of its own, a validator or the handler says so.
A parameter that was left blank is reported unless validation is skipped or a validator takes the
error away. -/
theorem wizard_missing (hr : d.resolve request = .ok r) (hw : r.action.wizard = true)
    (hl : d.listed r ≠ []) :
    (∀ name, (∃ e ∈ d.ruleErrors request r name, e.IsMissing) ↔ d.LeftBlank request r name ∨
      (d.LeftOut r name ∧ name ∈ (d.listed r).map fieldName)) ∧
    (∀ result, (d.dispatch request).result = .ok result →
      ∀ name, ∀ e ∈ result.errors.under name, e.IsMissing →
        d.OnPage r name ∨ d.LeftBlank request r name ∨ d.SaidElsewhere request r name e) ∧
    ((∀ v ∈ r.action.validators, v.OnlyAdds) → r.handler.skipsValidation = false →
      ∀ name, d.LeftBlank request r name →
        ∃ e ∈ (d.prepare request r).errors.under name, e.IsMissing) := by
  have hprepared : ∀ name, ∀ e ∈ (d.prepare request r).errors.under name, e.IsMissing →
      d.OnPage r name ∨ d.LeftBlank request r name ∨ d.SaidElsewhere request r name e := by
    intro name e he hk
    rcases mem_under_prepare he hk with he | he
    · rcases onPage_of_mem_ruleErrors hw hl he hk with hpage | hblank
      · exact .inl hpage
      · exact .inr (.inl hblank)
    · exact .inr (.inr he)
  refine ⟨fun name => exists_missing_mem_ruleErrors_iff hw hl, fun result h name e he hk => ?_,
    fun hv hs name hblank => ?_⟩
  · rcases errors_of_result hr h with hp | ⟨outcome, bean, cx, hanswer, hcx⟩ | hnone
    · exact hprepared name e (hp ▸ he) hk
    · by_cases hold : e ∈ (d.prepare request r).errors.under name
      · exact hprepared name e hold hk
      · exact .inr (.inr (.handler hanswer (hcx ▸ he) hold))
    · rw [hnone] at he
      cases he
  · obtain ⟨e, he, hk⟩ := (exists_missing_mem_ruleErrors_iff hw hl).mpr (.inl hblank)
    refine ⟨e, ?_, hk⟩
    rw [under_prepare hv, hs, if_neg Bool.false_ne_true]
    exact List.mem_append_right _ (List.mem_append_left _ he)

/-- A wizard that fills in two numbers. -/
def numberPages : Action where
  bean := { BeanType.ofFields "Numbers" [("numberOne", .scalar (.integer .int32 0)),
    ("numberTwo", .scalar (.integer .int32 0))] with rules := .ok numberRules }
  urlBinding := "/numbers"
  wizard := true
  handlers := [saveHandler]

/-- The dispatcher of the one wizard. -/
def ofNumberPages : Dispatcher where
  router := ⟨[⟨⟨"/numbers", [.literal "numbers"]⟩, "Numbers"⟩], [(numberPages, numberRules)]⟩
  freshBean := fun _ => none

/-- A request from the page of the first number, with a second number that is blank. -/
def firstPage : Request :=
  .ofPairs "/numbers" [("numberOne", ["1"]), ("numberTwo", [""]), ("__fp", ["numberOne"])]

/-- The request with its action and its event. -/
def firstPageResolved : ResolvedRequest :=
  ⟨⟨⟨"/numbers", [.literal "numbers"]⟩, "Numbers"⟩, numberPages, numberRules,
    firstPage.withCaptured [], saveHandler⟩

/-- The second number is not of the page, but it was left blank, so the result says that it is
missing. -/
theorem wizard_missing_firstPage :
    ofNumberPages.listed firstPageResolved = ["numberOne"] ∧
      ¬ ofNumberPages.OnPage firstPageResolved "numberTwo" ∧
      (¬ ∃ e ∈ ofNumberPages.ruleErrors firstPage firstPageResolved "numberOne", e.IsMissing) ∧
      ∃ result, (ofNumberPages.dispatch firstPage).result = .ok result ∧
        (∃ e ∈ result.errors.under "numberTwo", e.IsMissing) ∧
        ∀ name, ∀ e ∈ result.errors.under name, e.IsMissing →
          ofNumberPages.OnPage firstPageResolved name ∨
            ofNumberPages.LeftBlank firstPage firstPageResolved name ∨
            ofNumberPages.SaidElsewhere firstPage firstPageResolved name e := by
  have hr : ofNumberPages.resolve firstPage = .ok firstPageResolved := rfl
  have hl : ofNumberPages.listed firstPageResolved = ["numberOne"] := by decide +kernel
  obtain ⟨hrules, hresult, hreported⟩ := wizard_missing hr rfl (by simp [hl])
  have hone : ofNumberPages.Submits firstPageResolved "numberOne" := by
    refine ⟨?_, ?_⟩ <;> decide +kernel
  have htwo : ofNumberPages.LeftBlank firstPage firstPageResolved "numberTwo" := by
    refine ⟨⟨⟨{ field := "numberTwo", required := true }, none⟩, ?_, rfl, ?_⟩, ⟨?_, ?_⟩, ?_, ?_⟩
    · exact List.mem_cons_of_mem _ (List.mem_cons_self ..)
    all_goals decide +kernel
  have herror := hreported (fun v hv => nomatch hv) rfl "numberTwo" htwo
  have hheld : .invokeHandler ∉ (ofNumberPages.dispatch firstPage).stages := by
    rw [invokeHandler_mem_iff]
    rintro ⟨r, hr', hgate⟩
    obtain rfl := Except.ok.inj (hr.symm.trans hr')
    obtain ⟨e, he, -⟩ := herror
    rcases hgate with hnone | hi | hs
    · rw [FieldErrors.under_eq_nil_of_isEmpty hnone] at he
      cases he
    · cases hi
    · cases hs
  refine ⟨hl, ?_, ?_, _, result_of_not_invoked hr hheld, herror, ?_⟩
  · rw [OnPage, hl]
    decide +kernel
  · rw [hrules]
    rintro (⟨-, -, hb, -⟩ | ⟨⟨-, hnone⟩, -⟩)
    · exact absurd hb (by decide +kernel)
    · exact hnone "numberOne" hone (by decide +kernel)
  · exact hresult _ (result_of_not_invoked hr hheld)

end Dispatcher

end Formwork
