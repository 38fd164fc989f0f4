import Formwork.Proofs.Binding.Report
import Formwork.Proofs.Dispatch.Stages
import Formwork.Proofs.Property.Walk
import Formwork.Proofs.Validation.Fields

/-!
# Constraints of bound values

When a handler runs that minds errors, the rules of a field hold for every parameter of that field
that was bound (`holds_of_prepare`). A rule is looked up by the field of the parameter's name, not
by the properties that binding walked, so it counts only where the two are the same
(`constraints_of_admitted`).
-/

namespace Formwork.Dispatcher

variable {d : Dispatcher} {request : Request} {r : ResolvedRequest}

/-- What the parameters of a request are bound with. -/
def bindContext (d : Dispatcher) (request : Request) : BindContext :=
  { converters := d.converters, locale := request.locale.getD d.settings.defaultLocale
    maxIndex := d.settings.maxIndex, freshBean := d.freshBean }

/-- The parameters of a request that are bound, with their values. -/
def bindable (d : Dispatcher) (r : ResolvedRequest) : List (String × List String) :=
  r.parameters.entries.filter fun p => !d.skips r.action p.1

/-- The parameters of a request one after the other: for each, the bean that it was bound to, and
what came of it. -/
def steps (d : Dispatcher) (request : Request) (r : ResolvedRequest) :
    List (Value × BoundParameter) :=
  bindingSteps (d.bindContext request) (d.bindable r) r.action.freshBean

/-- The report on the parameters of a request. -/
def report (d : Dispatcher) (request : Request) (r : ResolvedRequest) : BindingReport :=
  (bindParameters (d.bindContext request) (d.skips r.action) r.parameters.entries
    r.action.freshBean).2

theorem parameters_report : (d.report request r).parameters = (d.steps request r).map (·.2) :=
  parameters_bindParameters _ _ _

theorem nodup_parameters_report : ((d.report request r).parameters.map (·.name)).Nodup := by
  rw [parameters_report, List.map_map]
  show ((bindingSteps (d.bindContext request) (d.bindable r) r.action.freshBean).map
    (·.2.name)).Nodup
  rw [names_bindingSteps]
  exact r.parameters.nodup_names.sublist (List.filter_sublist.map _)

/-- What is bound are the submitted values without white space at their ends. -/
theorem values_of_mem_steps {s : Value × BoundParameter} (h : s ∈ d.steps request r)
    {values : List String} (hv : r.parameters.get? s.2.name = some values) :
    s.2.values = values.map Text.trim := by
  obtain ⟨submitted, hm, he⟩ := values_of_mem_bindingSteps h
  have hs := NameMap.mem_entries_iff.mp (List.mem_of_mem_filter hm)
  rw [he, Option.some.inj (hv.symm.trans hs)]

theorem prepare_errors : (d.prepare request r).errors =
    d.validate r (d.prepare request r).bean (d.report request r) := rfl

/-- Without errors, each parameter that was bound keeps to the rules of its field. -/
theorem holds_of_prepare (he : (d.prepare request r).errors.isEmpty = true)
    (hs : r.handler.skipsValidation = false) (hk : ∀ v ∈ r.action.validators, v.KeepsErrors)
    {s : Value × BoundParameter} (hm : s ∈ d.steps request r) {numbers : List Float}
    (hb : s.2.outcome = .bound numbers) {c : CompiledRule}
    (hc : c ∈ r.rules.applicable r.handler.event) (hf : fieldName s.2.name = c.field) :
    c.Holds s.2.values numbers := by
  have hmem : s.2 ∈ (d.report request r).parameters := by
    rw [parameters_report]
    exact List.mem_map_of_mem hm
  have hvalues : (d.report request r).fieldValues.sorted.values s.2.name = s.2.values :=
    BindingReport.values_fieldValues nodup_parameters_report hmem
  have hnumbers : (d.report request r).fieldValues.sorted.numbers s.2.name = numbers :=
    BindingReport.numbers_of_bound nodup_parameters_report hmem hb
  have hconverted :
      (d.report request r).fieldValues.sorted.conversionFailed s.2.name = false :=
    BindingReport.conversionFailed_of_bound nodup_parameters_report hmem hb
  rw [prepare_errors] at he
  unfold validate at he
  simp only [hs, Bool.false_eq_true, ↓reduceIte] at he
  have hmerge := FieldErrors.isEmpty_merge_iff.mp (CustomValidator.isEmpty_of_runAll hk he)
  have herrors := RuleSet.isEmpty_validate_iff.mp hmerge.2 c hc
  have hname : s.2.name ∈ (d.report request r).fieldValues.sorted.names := by
    refine FieldValues.mem_sorted_names_iff.mpr ?_
    exact (BindingReport.mem_names_submitted_iff nodup_parameters_report).mpr ⟨s.2, hmem, rfl⟩
  have hparameter := CompiledRule.parameterErrors_of_errors herrors hname hf
  have hholds := CompiledRule.holds_of_parameterErrors hparameter hconverted
  rw [hvalues, hnumbers] at hholds
  refine hholds fun hblank => ?_
  rw [outcome_of_mem_bindingSteps hm] at hb
  exact length_numbers_of_bound hb hblank

/-- A rule that asks for no value and that no parameter is of the field of makes no difference. -/
theorem prepare_without {front left : List CompiledRule} {c : CompiledRule}
    (hrules : r.rules.rules = front ++ c :: left) (hr : c.rule.required = false)
    (hf : ∀ s ∈ d.steps request r, fieldName s.2.name ≠ c.field) :
    d.prepare request r = d.prepare request { r with rules := ⟨front ++ left⟩ } := by
  have hnames : ∀ name ∈ (d.report request r).fieldValues.names, fieldName name ≠ c.field := by
    intro name hm
    obtain ⟨p, hp, rfl⟩ :=
      (BindingReport.mem_names_submitted_iff nodup_parameters_report).mp hm
    rw [parameters_report] at hp
    obtain ⟨s, hs, rfl⟩ := List.mem_map.mp hp
    exact hf s hs
  have hset : r.rules = ⟨front ++ c :: left⟩ := by rw [← hrules]
  have herrors : (d.prepare request r).errors =
      (d.prepare request { r with rules := ⟨front ++ left⟩ }).errors := by
    show d.validate r (d.prepare request r).bean (d.report request r) =
      d.validate { r with rules := ⟨front ++ left⟩ } (d.prepare request r).bean
        (d.report request r)
    unfold validate
    rw [hset]
    dsimp only
    rw [RuleSet.validate_without hr hnames]
    rfl
  show (⟨(d.prepare request r).bean, (d.prepare request r).errors, _, _, _⟩ : Preparation) = _
  rw [herrors]
  rfl

/-- The chain of the properties of beans that a path walks from a bean. -/
def chain (d : Dispatcher) (request : Request) (bean : Value) (path : PropertyPath) : String :=
  String.intercalate "." (bean.walked (d.bindContext request) path.segments)

/-- **Constraints of bound values.** Let a handler run that minds errors, after validators that take
no errors away. A parameter that was bound keeps to the rules of the properties that its path
walked, if they are the field of its name; they are for a regular path in a tidy spelling. A rule
that no parameter is of the field of is checked against none, whatever their paths walked. -/
theorem constraints_of_admitted (h : d.Admitted request r)
    (hi : r.handler.ignoresErrors = false) (hs : r.handler.skipsValidation = false)
    (hk : ∀ v ∈ r.action.validators, v.KeepsErrors) :
    (∀ s ∈ d.steps request r, ∀ values numbers, r.parameters.get? s.2.name = some values →
      s.2.outcome = .bound numbers →
      ∃ path, PropertyPath.parse s.2.name = .ok path ∧
        (fieldName s.2.name = d.chain request s.1 path →
          ∀ c ∈ r.rules.applicable r.handler.event, c.field = d.chain request s.1 path →
            c.Holds values numbers) ∧
        ∀ w : Spelling, s.2.name.toList = w.text → w.SelfContained → w.Tidy →
          s.1.Regular (d.bindContext request) path.segments →
          fieldName s.2.name = d.chain request s.1 path) ∧
    ∀ front c left, r.rules.rules = front ++ c :: left → c.rule.required = false →
      (∀ s ∈ d.steps request r, fieldName s.2.name ≠ c.field) →
      d.prepare request r = d.prepare request { r with rules := ⟨front ++ left⟩ } := by
  obtain ⟨-, hgate⟩ := h
  have he : (d.prepare request r).errors.isEmpty = true := by
    rcases hgate with he | he | he
    · exact he
    · exact Bool.noConfusion (hi.symm.trans he)
    · exact Bool.noConfusion (hs.symm.trans he)
  refine ⟨fun s hm values numbers hv hb => ?_,
    fun front c left hrules hr hf => prepare_without hrules hr hf⟩
  have hstep := outcome_of_mem_bindingSteps hm
  rw [hb] at hstep
  obtain ⟨path, leaf, -, hp, hreach, -, -⟩ := bound_of_bindParameter hstep.symm
  refine ⟨path, hp, fun hfield c hc hchain => ?_, fun w ht hw htidy hregular => ?_⟩
  · have hholds := holds_of_prepare he hs hk hm hb hc (hfield.trans hchain.symm)
    rw [values_of_mem_steps hm hv] at hholds
    exact CompiledRule.holds_map_trim_iff.mp hholds
  · obtain ⟨hblank, -⟩ := PropertyPath.parse_eq_ok_iff.mp hp
    have hw' := PropertyPath.parse_eq_ok_iff.mpr ⟨hblank, w, ht, rfl⟩
    obtain rfl := Except.ok.inj (hp.symm.trans hw')
    have hname : s.2.name = String.ofList w.text := by rw [← ht, String.ofList_toList]
    rw [hname]
    exact fieldName_eq_walked hw htidy hreach hregular

/-- The rule of a code with at most three characters. -/
def codeRule : CompiledRule := ⟨{ field := "code", maxLength := some 3 }, none⟩

/-- A handler that minds errors. -/
def saveHandler : EventHandler where
  event := "save"
  isDefault := true
  run := fun bean cx => .ok (cx.redisplay, bean, cx)

/-- An action whose bean has a code. -/
def shelf : Action where
  bean := { BeanType.ofFields "Shelf" [("code", .scalar (.text ""))] with
    rules := .ok ⟨[codeRule]⟩ }
  urlBinding := "/shelf"
  handlers := [saveHandler]

/-- The dispatcher of the one action. -/
def ofShelf : Dispatcher where
  router := ⟨[⟨⟨"/shelf", [.literal "shelf"]⟩, "Shelf"⟩], [(shelf, ⟨[codeRule]⟩)]⟩
  freshBean := fun _ => none

/-- A request with a code under a name. -/
def shelfRequest (name value : String) : Request := .ofPairs "/shelf" [(name, [value])]

/-- The request with its action and its event. -/
def shelfResolved (name value : String) : ResolvedRequest :=
  ⟨⟨⟨"/shelf", [.literal "shelf"]⟩, "Shelf"⟩, shelf, ⟨[codeRule]⟩,
    (shelfRequest name value).parameters, saveHandler⟩

/-- The code is checked under its name, and not under its key in brackets. -/
theorem constraints_of_admitted_shelf :
    (ofShelf.Admitted (shelfRequest "code" "ab") (shelfResolved "code" "ab") ∧
      codeRule.Holds ["ab"] []) ∧
    ofShelf.Admitted (shelfRequest "['code']" "abcd") (shelfResolved "['code']" "abcd") ∧
      ¬ codeRule.Holds ["abcd"] [] ∧
      ∃ s ∈ ofShelf.steps (shelfRequest "['code']" "abcd") (shelfResolved "['code']" "abcd"),
        s.2 = ⟨"['code']", ["abcd"], .bound []⟩ ∧
        ofShelf.chain (shelfRequest "['code']" "abcd") s.1
          ⟨"['code']", [.index "code"]⟩ = codeRule.field := by
  have hadmitted : ofShelf.Admitted (shelfRequest "code" "ab") (shelfResolved "code" "ab") :=
    ⟨rfl, .inl (by decide +kernel)⟩
  have hsteps : ofShelf.steps (shelfRequest "code" "ab") (shelfResolved "code" "ab") =
      [(shelf.freshBean, ⟨"code", ["ab"], .bound []⟩)] := rfl
  refine ⟨⟨hadmitted, ?_⟩, ⟨rfl, .inl (by decide +kernel)⟩, ?_, ?_⟩
  · obtain ⟨hholds, -⟩ :=
      constraints_of_admitted hadmitted rfl rfl (by simp [shelfResolved, shelf])
    obtain ⟨path, hp, hchecked, -⟩ :=
      hholds _ (hsteps ▸ List.mem_singleton_self _) ["ab"] [] rfl rfl
    obtain rfl := Except.ok.inj (hp.symm.trans
      (by decide +kernel : PropertyPath.parse "code" = .ok ⟨"code", [.property "code"]⟩))
    exact hchecked (by decide +kernel) codeRule (by simp [shelfResolved, RuleSet.applicable,
      codeRule, EventScope.applies]) (by decide +kernel)
  · intro hholds
    have hlength := ((hholds.1 "abcd" (by simp) (by decide +kernel)).2.1 3 rfl)
    revert hlength
    decide +kernel
  · exact ⟨_, List.mem_singleton_self _, rfl, by decide +kernel⟩

end Formwork.Dispatcher
