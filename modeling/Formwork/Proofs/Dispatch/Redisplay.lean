import Formwork.Proofs.Binding.Accounting
import Formwork.Proofs.Binding.Failures
import Formwork.Proofs.Dispatch.Constraints

/-!
# What a page shows again

A request whose handler must not run shows its page again, and nothing is lost on the way there.

- **Errors** (`under_prepare`): the errors of a field are those that the converters report of the
  parameter (`conversionErrors`), then those of the rules (`ruleErrors`), then those that the
  validators add (`validatorErrors`).
- **Values** (`get?_withCaptured`): the values of the page are the submitted ones as they came, and
  those captured from the path where none were submitted.
- **The page** (`redisplay_complete`): it carries all of them, and so does the result.
-/

namespace Formwork

/-- Captured values come in where a name has none, and the first one of a name counts. -/
theorem Request.get?_foldl_captured (captured : List (String × String))
    (m : NameMap (List String)) (name : String) :
    (captured.foldl (fun m c => m.upsert c.1 fun old => old.getD [c.2]) m).get? name =
      (m.get? name).or ((NameMap.find name captured).map ([·])) := by
  induction captured generalizing m with
  | nil => simp [NameMap.find]
  | cons c rest ih =>
    obtain ⟨n, v⟩ := c
    rw [List.foldl_cons, ih, NameMap.get?_upsert, NameMap.find]
    by_cases hn : n = name
    · subst hn
      rw [if_pos rfl, if_pos rfl]
      cases m.get? n <;> rfl
    · rw [if_neg hn, if_neg hn]

theorem Request.get?_withCaptured (request : Request) (captured : List (String × String))
    (name : String) : (request.withCaptured captured).get? name =
      (request.parameters.get? name).or ((NameMap.find name captured).map ([·])) :=
  get?_foldl_captured captured request.parameters name

namespace Dispatcher

variable {d : Dispatcher} {request : Request} {r : ResolvedRequest}

/-! ## Errors -/

/-- The errors that the converters report of the parameter of a name. -/
def conversionErrors (d : Dispatcher) (request : Request) (r : ResolvedRequest) (name : String) :
    List FieldError :=
  ((d.steps request r).filter (·.2.name == name)).flatMap fun s =>
    (d.bindContext request).reports s.1 s.2

/-- The errors of the rules under a name, rule by rule, and the parameters in ascending order. -/
def ruleErrors (d : Dispatcher) (request : Request) (r : ResolvedRequest) (name : String) :
    List FieldError :=
  (((r.rules.applicable r.handler.event).flatMap fun c =>
      c.errors (d.report request r).fieldValues
        (d.requiredScope r (d.report request r))).filter (·.1 == name)).map
    fun e => e.2.inField e.1

/-- The errors that the validators meet: those of the converters and of the rules. -/
def checked (d : Dispatcher) (request : Request) (r : ResolvedRequest) : FieldErrors :=
  (d.report request r).errors.merge (r.rules.validate (d.report request r).fieldValues
    r.handler.event (d.requiredScope r (d.report request r)))

/-- The errors that the validators add under a name, one validator after the other. -/
def validatorErrors (d : Dispatcher) (request : Request) (r : ResolvedRequest) (name : String) :
    List FieldError :=
  (CustomValidator.met (d.prepare request r).bean r.handler.event r.action.validators
      (d.checked request r)).flatMap
    fun m => m.1.added (d.prepare request r).bean m.2 name

theorem accounts_report : (d.report request r).Accounts :=
  BindingReport.accounts_bindParameters _ _ r.parameters.nodup_names _

theorem under_report (name : String) :
    (d.report request r).errors.under name = d.conversionErrors request r name := by
  rw [accounts_report.under_errors, parameters_report, List.filter_map, List.flatMap_map,
    List.map_flatMap]
  refine List.flatMap_congr fun s hs => ?_
  exact BoundParameter.map_snd_errors
    (outcome_of_mem_bindingSteps (List.mem_of_mem_filter hs))

theorem under_checked (name : String) : (d.checked request r).under name =
    d.conversionErrors request r name ++ d.ruleErrors request r name := by
  unfold checked RuleSet.validate
  rw [FieldErrors.under_merge, under_report, FieldErrors.under_addAll,
    BindingReport.sorted_fieldValues]
  rfl

/-- **Errors.** The errors of a field are those of the conversion, of the rules and of the
validators, in this order; only the first if validation is skipped. -/
theorem under_prepare (hv : ∀ v ∈ r.action.validators, v.OnlyAdds) (name : String) :
    (d.prepare request r).errors.under name =
      d.conversionErrors request r name ++
        if r.handler.skipsValidation then []
        else d.ruleErrors request r name ++ d.validatorErrors request r name := by
  rw [prepare_errors]
  unfold validate
  by_cases hs : r.handler.skipsValidation = true
  · rw [if_pos hs, if_pos hs, under_report, List.append_nil]
  · rw [if_neg hs, if_neg hs]
    show (CustomValidator.runAll r.action.validators (d.prepare request r).bean r.handler.event
      (d.checked request r)).under name = _
    rw [CustomValidator.under_runAll hv, under_checked, List.append_assoc]
    rfl

/-! ## The page -/

/-- A resolved request whose handler does not run shows its page again. -/
theorem result_of_not_invoked (hr : d.resolve request = .ok r)
    (hi : .invokeHandler ∉ (d.dispatch request).stages) :
    (d.dispatch request).result = .ok (r.redisplay (d.prepare request r)) := by
  rw [dispatch_stages_eq] at hi
  rw [dispatch_result_eq]
  obtain ⟨f, hr', -⟩ | ⟨r', hr', ⟨-, hrun⟩ | ⟨-, ⟨f, -, hrun⟩ | ⟨result, -, hrun⟩⟩⟩ :=
    run_cases d request
  · cases hr.symm.trans hr'
  · obtain rfl := Except.ok.inj (hr.symm.trans hr')
    rw [hrun]
  · simp [hrun] at hi
  · simp [hrun] at hi

/-- **The page.** With validators that only add errors, the errors of each field after validation
are those of the conversion, of the rules and of the validators. If the handler does not run, the
page and the result carry these errors, the result has the bean as it was bound and the refusals,
and the page has the values as they were submitted, and the captured ones that were not. -/
theorem redisplay_complete (hr : d.resolve request = .ok r)
    (hv : ∀ v ∈ r.action.validators, v.OnlyAdds) :
    (∀ name, (d.prepare request r).errors.under name =
      d.conversionErrors request r name ++
        if r.handler.skipsValidation then []
        else d.ruleErrors request r name ++ d.validatorErrors request r name) ∧
    (.invokeHandler ∉ (d.dispatch request).stages →
      ∃ result page m, (d.dispatch request).result = .ok result ∧
        result.outcome = .redisplay page ∧
        result.errors = (d.prepare request r).errors ∧
        page.errors = (d.prepare request r).errors ∧
        result.bean = some (bindParameters (d.bindContext request) (d.skips r.action)
          r.parameters.entries r.action.freshBean).1 ∧
        result.bindingErrors = (d.report request r).refusals ∧
        d.router.match? request.path = some m ∧
        ∀ name, page.values.get? name =
          (request.parameters.get? name).or ((NameMap.find name m.captured).map ([·]))) := by
  refine ⟨under_prepare hv, fun hi => ?_⟩
  obtain ⟨m, hm, -, -, -, hparameters⟩ := resolve_eq_ok_iff.mp hr
  refine ⟨_, _, m, result_of_not_invoked hr hi, rfl, rfl, rfl, rfl, rfl, hm, fun name => ?_⟩
  show r.parameters.get? name = _
  rw [hparameters, Request.get?_withCaptured]

/-- The rule of a count with at least two digits. -/
def countRule : CompiledRule := ⟨{ field := "count", minLength := some 2 }, none⟩

/-- A validator that is never content. -/
def recount : CustomValidator Value where
  name := "recount"
  check _ errors := errors.add "count" (.simple "Count again.")

theorem under_check_recount (bean : Value) (errors : FieldErrors) (field : String) :
    (recount.check bean errors).under field = errors.under field ++
      if "count" = field then [(FieldError.simple "Count again.").inField "count"] else [] :=
  FieldErrors.under_append ..

/-- An action for the boxes of a room. -/
def stock : Action where
  bean := { BeanType.ofFields "Stock" [("count", .scalar (.integer .int32 0))] with
    rules := .ok ⟨[countRule]⟩ }
  urlBinding := "/stock/{room}"
  handlers := [saveHandler]
  validators := [recount]

/-- The dispatcher of the one action. -/
def ofStock : Dispatcher where
  router := ⟨[⟨⟨"/stock/{room}", [.literal "stock", .parameter "room"]⟩, "Stock"⟩],
    [(stock, ⟨[countRule]⟩)]⟩
  freshBean := fun _ => none

/-- A request with a count that is none, and a parameter that is no property. -/
def stockRequest : Request := .ofPairs "/stock/7" [("count", [" x "]), ("box", [""])]

/-- The request with its action and its event. -/
def stockResolved : ResolvedRequest :=
  ⟨⟨⟨"/stock/{room}", [.literal "stock", .parameter "room"]⟩, "Stock"⟩, stock, ⟨[countRule]⟩,
    stockRequest.withCaptured [("room", "7")], saveHandler⟩

/-- The count has an error of each kind, and the page has all values, also that of the room. -/
theorem redisplay_complete_stock :
    (ofStock.prepare stockRequest stockResolved).errors.under "count" =
      [(FieldError.conversion "converter.number.invalidNumber").setField "count" (some "x"),
        ((FieldError.constraint "validation.minlength.valueTooShort").addParameter "2").setField
          "count" (some "x"),
        (FieldError.simple "Count again.").setField "count" none] ∧
      ∃ result page, (ofStock.dispatch stockRequest).result = .ok result ∧
        result.outcome = .redisplay page ∧
        page.errors = (ofStock.prepare stockRequest stockResolved).errors ∧
        page.values.get? "count" = some [" x "] ∧ page.values.get? "box" = some [""] ∧
        page.values.get? "room" = some ["7"] := by
  have hr : ofStock.resolve stockRequest = .ok stockResolved := rfl
  have hv : ∀ v ∈ stockResolved.action.validators, v.OnlyAdds := by
    intro v hv bean errors field
    rw [List.mem_singleton.mp hv, under_check_recount]
    exact List.prefix_append _ _
  have hadded : ofStock.validatorErrors stockRequest stockResolved "count" =
      [(FieldError.simple "Count again.").setField "count" none] := by
    show recount.added _ _ "count" ++ [] = _
    rw [CustomValidator.added, under_check_recount, List.drop_left]
    rfl
  obtain ⟨herrors, hpage⟩ := redisplay_complete hr hv
  have hchecked : stockResolved.handler.skipsValidation = false := rfl
  have hcount : (ofStock.prepare stockRequest stockResolved).errors.under "count" =
      [(FieldError.conversion "converter.number.invalidNumber").setField "count" (some "x"),
        ((FieldError.constraint "validation.minlength.valueTooShort").addParameter "2").setField
          "count" (some "x"),
        (FieldError.simple "Count again.").setField "count" none] := by
    rw [herrors, hchecked, if_neg Bool.false_ne_true, hadded]
    rfl
  have hblocked : .invokeHandler ∉ (ofStock.dispatch stockRequest).stages := by
    rw [invokeHandler_mem_iff]
    rintro ⟨r, hr', he | hi | hs⟩
    · obtain rfl := Except.ok.inj (hr.symm.trans hr')
      rw [FieldErrors.under_eq_nil_of_isEmpty he] at hcount
      cases hcount
    · obtain rfl := Except.ok.inj (hr.symm.trans hr')
      cases hi
    · obtain rfl := Except.ok.inj (hr.symm.trans hr')
      cases hs
  obtain ⟨result, page, m, hresult, houtcome, -, hsame, -, -, hm, hvalues⟩ := hpage hblocked
  obtain rfl : m = ⟨⟨⟨"/stock/{room}", [.literal "stock", .parameter "room"]⟩, "Stock"⟩,
      [("room", "7")], none⟩ := (Option.some.inj (hm.symm.trans rfl))
  refine ⟨hcount, result, page, hresult, houtcome, hsame, ?_, ?_, ?_⟩
  · rw [hvalues]
    rfl
  · rw [hvalues]
    rfl
  · rw [hvalues]
    rfl

end Dispatcher

end Formwork
