import Formwork.Dispatch.Dispatcher
import Formwork.Proofs.Routing.Router

/-!
# The stages of a request

- **The steps** (`resolve_eq_ok_iff`, `invoke_eq_error_iff`): when an action and an event are found,
  and when a handler fails.
- **The ways** (`run_cases`): a request is not resolved, is held back by its errors, fails in its
  handler, or is served. Whatever holds of the stages follows from these four cases.
- **The gate** (`dispatch_stages`): which stages a request goes through, when its handler runs, and
  what is left of a failure that no exception handler takes.
-/

namespace Formwork

/-- The context in which the handler of a request runs. -/
def ResolvedRequest.context (r : ResolvedRequest) (p : Preparation) (path : String) :
    ActionContext :=
  { path, urlBinding := r.binding.pattern.text, event := r.handler.event
    parameters := r.parameters, locale := p.locale, sourcePage := p.sourcePage
    errors := p.errors }

theorem ResolvedRequest.invoke_eq_error_iff {r : ResolvedRequest} {p : Preparation}
    {path : String} {f : DispatchFailure} :
    r.invoke p path = .error f ↔ ∃ failure,
      r.action.invoke r.handler p.bean (r.context p path) = .error failure ∧
      f = { error := .handlerFailed r.action.name r.handler.event failure
            handlerType := some r.action.name, event := some r.handler.event } := by
  unfold invoke context
  dsimp only
  generalize r.action.invoke r.handler p.bean _ = answer
  cases answer with
  | error failure => simp [eq_comm]
  | ok answer => simp

theorem Preparation.blocked_eq_false_iff {p : Preparation} {h : EventHandler} :
    p.blocked h = false ↔
      p.errors.isEmpty = true ∨ h.ignoresErrors = true ∨ h.skipsValidation = true := by
  unfold blocked
  cases p.errors.isEmpty <;> cases h.ignoresErrors <;> cases h.skipsValidation <;> simp

namespace Dispatcher

variable {d : Dispatcher} {request : Request}

/-! ## The steps -/

/-- The event of a request to an action that a binding names. -/
def event (d : Dispatcher) (request : Request) (m : RouteMatch) (a : Action) :
    Except RouterError EventHandler :=
  a.resolveEvent request.event (request.withCaptured m.captured) m.pathInfo
    d.settings.eventParameter

/-- No binding matches the path of a request, or the action that is bound to it has no handler for
the event that the request means. -/
def Unresolved (d : Dispatcher) (request : Request) : Prop :=
  d.router.match? request.path = none ∨
    ∃ m a rules e, d.router.match? request.path = some m ∧
      d.router.actions.find? (·.1.id == m.binding.target) = some (a, rules) ∧
      d.event request m a = .error e

theorem resolve_eq_ok_iff {r : ResolvedRequest} :
    d.resolve request = .ok r ↔ ∃ m, d.router.match? request.path = some m ∧
      d.router.actions.find? (·.1.id == m.binding.target) = some (r.action, r.rules) ∧
      d.event request m r.action = .ok r.handler ∧
      r.binding = m.binding ∧ r.parameters = request.withCaptured m.captured := by
  unfold resolve
  cases hm : d.router.match? request.path with
  | none => simp
  | some m =>
    cases ha : d.router.actions.find? (·.1.id == m.binding.target) with
    | none => simp [ha]
    | some entry =>
      obtain ⟨a, rules⟩ := entry
      simp only [ha, Option.some.injEq, Prod.mk.injEq, exists_eq_left']
      unfold event
      constructor
      · intro h
        split at h
        · cases h
        · next handler he =>
          cases h
          exact ⟨⟨rfl, rfl⟩, he, rfl, rfl⟩
      · obtain ⟨binding, action, rules', parameters, handler⟩ := r
        rintro ⟨⟨rfl, rfl⟩, he, rfl, rfl⟩
        simp [he]

/-- An event that is not found has no causes. -/
theorem innerCauses_of_resolveEvent {a : Action} {stated : Option String}
    {parameters : NameMap (List String)} {pathInfo : Option String} {eventParameter : String}
    {e : RouterError}
    (h : a.resolveEvent stated parameters pathInfo eventParameter = .error e) :
    e.innerCauses = [] := by
  unfold Action.resolveEvent at h
  dsimp only at h
  split at h <;> split at h <;> cases h <;> rfl

/-- A request that is not resolved has no binding, or fails for want of an action or an event. -/
theorem error_of_resolve {f : DispatchFailure} (h : d.resolve request = .error f) :
    f.error = .noBinding request.path ∨ ∃ e, f.error = .routing e ∧ e.innerCauses = [] := by
  unfold resolve at h
  split at h
  · cases h
    exact .inl rfl
  · split at h
    · cases h
      exact .inr ⟨_, rfl, rfl⟩
    · dsimp only at h
      split at h
      · next e he =>
        cases h
        exact .inr ⟨e, rfl, innerCauses_of_resolveEvent he⟩
      · cases h

/-- With a router that was built from actions, only a missing binding or event keeps a request from
being resolved. -/
theorem unresolved_iff {actions : List Action} (hb : Router.build actions = .ok d.router) :
    d.Unresolved request ↔ ∃ f, d.resolve request = .error f := by
  unfold Unresolved
  cases hm : d.router.match? request.path with
  | none => simp [resolve, hm]
  | some m =>
    obtain ⟨⟨a, rules⟩, ha⟩ := Router.exists_action_of_match? hb hm
    cases he : d.event request m a with
    | error e =>
      refine iff_of_true (.inr ⟨m, a, rules, e, rfl, ha, he⟩) ?_
      unfold event at he
      simp [resolve, hm, ha, he]
    | ok handler =>
      refine iff_of_false ?_ ?_
      · rintro (h | ⟨m', a', rules', e, hm', ha', he'⟩)
        · cases h
        · obtain rfl := Option.some.inj hm'
          rw [ha] at ha'
          cases ha'
          rw [he] at he'
          cases he'
      · rintro ⟨f, hf⟩
        have hr : d.resolve request = .ok ⟨m.binding, a, rules, _, handler⟩ :=
          resolve_eq_ok_iff.mpr ⟨m, hm, ha, he, rfl, rfl⟩
        rw [hr] at hf
        cases hf

/-! ## The ways -/

/-- The four ways of a request, with their stages and what comes of them. -/
theorem run_cases (d : Dispatcher) (request : Request) :
    (∃ f, d.resolve request = .error f ∧
      d.run request = ([.resolveHandler, .failed], .error f)) ∨
    ∃ r, d.resolve request = .ok r ∧
      (((d.prepare request r).blocked r.handler = true ∧
        d.run request =
          ([.resolveHandler, .bindParameters, .validateCustom, .executeOutcome, .done],
            .ok (r.redisplay (d.prepare request r)))) ∨
      ((d.prepare request r).blocked r.handler = false ∧
        ((∃ f, r.invoke (d.prepare request r) request.path = .error f ∧
          d.run request =
            ([.resolveHandler, .bindParameters, .validateCustom, .invokeHandler, .failed],
              .error f)) ∨
        ∃ result, r.invoke (d.prepare request r) request.path = .ok result ∧
          d.run request =
            ([.resolveHandler, .bindParameters, .validateCustom, .invokeHandler,
              .executeOutcome, .done], .ok result)))) := by
  unfold run
  cases hr : d.resolve request with
  | error f => exact .inl ⟨f, rfl, rfl⟩
  | ok r =>
    refine .inr ⟨r, rfl, ?_⟩
    cases hb : (d.prepare request r).blocked r.handler with
    | true => exact .inl ⟨rfl, by simp [hb]⟩
    | false =>
      refine .inr ⟨rfl, ?_⟩
      cases hi : r.invoke (d.prepare request r) request.path with
      | error f => exact .inl ⟨f, rfl, by simp [hb, hi]⟩
      | ok result => exact .inr ⟨result, rfl, by simp [hb, hi]⟩

/-- What a request fails with: it is not resolved, or its handler fails. -/
theorem error_of_run {f : DispatchFailure} (h : (d.run request).2 = .error f) :
    f.error = .noBinding request.path ∨ (∃ e, f.error = .routing e ∧ e.innerCauses = []) ∨
      ∃ type event failure, f.error = .handlerFailed type event failure := by
  obtain ⟨g, hr, hrun⟩ | ⟨r, -, ⟨-, hrun⟩ | ⟨-, ⟨g, hi, hrun⟩ | ⟨result, -, hrun⟩⟩⟩ :=
    run_cases d request
  · rw [hrun] at h
    cases h
    exact (error_of_resolve hr).imp_right .inl
  · rw [hrun] at h
    cases h
  · rw [hrun] at h
    cases h
    obtain ⟨failure, -, rfl⟩ := ResolvedRequest.invoke_eq_error_iff.mp hi
    exact .inr (.inr ⟨_, _, failure, rfl⟩)
  · rw [hrun] at h
    cases h

theorem dispatch_stages_eq (d : Dispatcher) (request : Request) :
    (d.dispatch request).stages = (d.run request).1 := by
  unfold dispatch
  split <;> next h => rw [h]

theorem dispatch_result_eq (d : Dispatcher) (request : Request) :
    (d.dispatch request).result =
      (match (d.run request).2 with
        | .ok result => .ok result
        | .error f => d.recover request.path f) := by
  unfold dispatch
  split <;> next h => rw [h]

/-! ## The gate -/

/-- What the handler of a resolved request answers to the bean that was bound and validated. -/
def answer (d : Dispatcher) (request : Request) (r : ResolvedRequest) : HandlerAnswer :=
  r.action.invoke r.handler (d.prepare request r).bean
    (r.context (d.prepare request r) request.path)

/-- The handler of a request runs. -/
def Admitted (d : Dispatcher) (request : Request) (r : ResolvedRequest) : Prop :=
  d.resolve request = .ok r ∧ ((d.prepare request r).errors.isEmpty = true ∨
    r.handler.ignoresErrors = true ∨ r.handler.skipsValidation = true)

/-- The lists of stages of the four ways. -/
def courses : List (List Stage) :=
  [[.resolveHandler, .failed],
    [.resolveHandler, .bindParameters, .validateCustom, .executeOutcome, .done],
    [.resolveHandler, .bindParameters, .validateCustom, .invokeHandler, .executeOutcome, .done],
    [.resolveHandler, .bindParameters, .validateCustom, .invokeHandler, .failed]]

theorem stages_mem_courses (d : Dispatcher) (request : Request) :
    (d.dispatch request).stages ∈ courses := by
  rw [dispatch_stages_eq]
  obtain ⟨f, -, hrun⟩ | ⟨r, -, ⟨-, hrun⟩ | ⟨-, ⟨f, -, hrun⟩ | ⟨result, -, hrun⟩⟩⟩ :=
    run_cases d request <;> simp [hrun, courses]

theorem validateCustom_after_bindParameters {stages : List Stage} (hs : stages ∈ courses) {i : Nat}
    (hi : stages[i]? = some .bindParameters) : stages[i + 1]? = some .validateCustom := by
  have hall : ∀ l ∈ courses, ∀ i < l.length,
      l[i]? = some .bindParameters → l[i + 1]? = some .validateCustom := by decide
  exact hall stages hs i (List.getElem?_eq_some_iff.mp hi).1 hi

theorem invokeHandler_mem_iff :
    .invokeHandler ∈ (d.dispatch request).stages ↔ ∃ r, d.Admitted request r := by
  rw [dispatch_stages_eq]
  unfold Admitted
  simp only [← Preparation.blocked_eq_false_iff]
  obtain ⟨f, hr, hrun⟩ | ⟨r, hr, ⟨hb, hrun⟩ | ⟨hb, ⟨f, -, hrun⟩ | ⟨result, -, hrun⟩⟩⟩ :=
    run_cases d request
  · simp [hr, hrun]
  · simp [hr, hb, hrun]
  · simp [hr, hb, hrun]
  · simp [hr, hb, hrun]

theorem failed_mem_iff {actions : List Action} (hb : Router.build actions = .ok d.router) :
    .failed ∈ (d.dispatch request).stages ↔ d.Unresolved request ∨
      ∃ r failure, d.Admitted request r ∧ d.answer request r = .error failure := by
  rw [dispatch_stages_eq, unresolved_iff hb]
  unfold Admitted answer
  simp only [← Preparation.blocked_eq_false_iff]
  obtain ⟨f, hr, hrun⟩ | ⟨r, hr, ⟨hb, hrun⟩ | ⟨hb, ⟨f, hi, hrun⟩ | ⟨result, hi, hrun⟩⟩⟩ :=
    run_cases d request
  · simp [hr, hrun]
  · simp [hr, hb, hrun]
  · obtain ⟨failure, ha, -⟩ := ResolvedRequest.invoke_eq_error_iff.mp hi
    simp [hr, hb, hrun, ha]
  · have ha : ∀ failure, r.action.invoke r.handler (d.prepare request r).bean
        (r.context (d.prepare request r) request.path) ≠ .error failure := by
      intro failure ha
      rw [ResolvedRequest.invoke_eq_error_iff.mpr ⟨failure, ha, rfl⟩] at hi
      cases hi
    simp [hr, hb, hrun, ha]

/-- A failed run is one that went through the failed stage. -/
theorem failed_mem_iff_run :
    .failed ∈ (d.dispatch request).stages ↔ ∃ f, (d.run request).2 = .error f := by
  rw [dispatch_stages_eq]
  obtain ⟨f, -, hrun⟩ | ⟨r, -, ⟨-, hrun⟩ | ⟨-, ⟨f, -, hrun⟩ | ⟨result, -, hrun⟩⟩⟩ :=
    run_cases d request <;> simp [hrun]

/-- **The gate.** A request goes through one of four lists of stages. Binding is always followed by
validation. The handler runs iff there are no errors or it does not mind them, and a request that is
done without it shows its page again. A request fails iff it cannot be resolved or its handler
fails; only then, and if no exception handler takes the failure, is the result an error, which wraps
the failure and the path and is not wrapped twice. -/
theorem dispatch_stages {actions : List Action} (hb : Router.build actions = .ok d.router)
    (request : Request) :
    ((d.dispatch request).stages = [.resolveHandler, .failed] ∨
      (d.dispatch request).stages =
        [.resolveHandler, .bindParameters, .validateCustom, .executeOutcome, .done] ∨
      (d.dispatch request).stages =
        [.resolveHandler, .bindParameters, .validateCustom, .invokeHandler, .executeOutcome,
          .done] ∨
      (d.dispatch request).stages =
        [.resolveHandler, .bindParameters, .validateCustom, .invokeHandler, .failed]) ∧
    (∀ i : Nat, (d.dispatch request).stages[i]? = some .bindParameters →
      (d.dispatch request).stages[i + 1]? = some .validateCustom) ∧
    (.invokeHandler ∈ (d.dispatch request).stages ↔ ∃ r, d.Admitted request r) ∧
    (.done ∈ (d.dispatch request).stages → .invokeHandler ∉ (d.dispatch request).stages →
      ∃ result page, (d.dispatch request).result = .ok result ∧
        result.outcome = .redisplay page) ∧
    (.failed ∈ (d.dispatch request).stages ↔ d.Unresolved request ∨
      ∃ r failure, d.Admitted request r ∧ d.answer request r = .error failure) ∧
    ∀ e, (d.dispatch request).result = .error e ↔
      .failed ∈ (d.dispatch request).stages ∧
      ∃ f, (d.run request).2 = .error f ∧
        d.exceptions.handle f.error
          { path := request.path, event := f.event, handlerType := f.handlerType } = none ∧
        e = .unhandled request.path f.error ∧
        ∀ path source, f.error ≠ .unhandled path source := by
  have hmem := stages_mem_courses d request
  refine ⟨?_, fun i => validateCustom_after_bindParameters hmem, invokeHandler_mem_iff,
    fun hd hi => ?_, failed_mem_iff hb, fun e => ?_⟩
  · simpa only [courses, List.mem_cons, List.not_mem_nil, or_false] using hmem
  · rw [dispatch_stages_eq] at hd hi
    rw [dispatch_result_eq]
    obtain ⟨f, -, hrun⟩ | ⟨r, -, ⟨-, hrun⟩ | ⟨-, ⟨f, -, hrun⟩ | ⟨result, -, hrun⟩⟩⟩ :=
      run_cases d request
    · simp [hrun] at hd
    · exact ⟨r.redisplay (d.prepare request r), _, by rw [hrun], rfl⟩
    · simp [hrun] at hd
    · simp [hrun] at hi
  · rw [failed_mem_iff_run, dispatch_result_eq]
    cases hrun : (d.run request).2 with
    | ok result => simp
    | error f =>
      have hne : ∀ path source, f.error ≠ .unhandled path source := by
        intro path source he
        obtain h | ⟨e, h, -⟩ | ⟨type, event, failure, h⟩ := error_of_run hrun <;>
          cases h.symm.trans he
      unfold recover
      cases hx : d.exceptions.handle f.error
          { path := request.path, event := f.event, handlerType := f.handlerType } with
      | some outcome => simp [hx]
      | none => simp [hx, hne, eq_comm]

/-- A dispatcher of the pages of bugs. -/
def ofBugPages (r : Router) : Dispatcher := { router := r, freshBean := fun _ => none }

theorem dispatch_stages_bugPages : ∃ r, Router.build Router.bugPages = .ok r ∧
    ((ofBugPages r).dispatch { path := "/nowhere" }).stages = [.resolveHandler, .failed] ∧
    ((ofBugPages r).dispatch { path := "/nowhere" }).result =
      .error (.unhandled "/nowhere" (.noBinding "/nowhere")) := by
  obtain ⟨r, hb⟩ : ∃ r, Router.build Router.bugPages = .ok r := ⟨_, rfl⟩
  have hr : .ok r = Router.build Router.bugPages := hb.symm
  obtain rfl := Except.ok.inj (hr.trans (rfl : Router.build Router.bugPages = .ok _))
  refine ⟨_, hb, rfl, ?_⟩
  have hd : Router.build Router.bugPages = .ok (ofBugPages _).router := hb
  have hresult := (dispatch_stages hd { path := "/nowhere" }).2.2.2.2.2
  refine (hresult _).mpr ⟨by decide +kernel, { error := .noBinding "/nowhere" }, rfl, rfl, rfl, ?_⟩
  rintro path source ⟨⟩

end Dispatcher

end Formwork
