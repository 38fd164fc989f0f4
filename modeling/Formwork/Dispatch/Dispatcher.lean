import Formwork.Binding
import Formwork.Conversion.BuiltIn
import Formwork.Dispatch.Exceptions
import Formwork.Manifest
import Formwork.Request

/-!
# Dispatching requests

A request goes through stages: its action and event are resolved, its parameters are bound to a new
bean, the bean is validated, and the handler runs unless there are errors that forbid it. A failure
is offered to the exception handlers.

* `Dispatcher.prepare`: everything up to the decision.
* `Preparation.blocked`: whether errors keep the handler from running.
* `Dispatcher.dispatch`: the stages and the result.
-/

namespace Formwork

/-- A stage of a request. -/
inductive Stage where
  | resolveHandler
  | bindParameters
  | validateCustom
  | invokeHandler
  | executeOutcome
  | done
  | failed
  deriving DecidableEq

/-- The name of a stage. -/
def Stage.name : Stage → String
  | resolveHandler => "ResolveHandler"
  | bindParameters => "BindParameters"
  | validateCustom => "ValidateCustom"
  | invokeHandler => "InvokeHandler"
  | executeOutcome => "ExecuteOutcome"
  | done => "Done"
  | failed => "Failed"

/-- The names of special parameters, and what holds where a request says nothing. -/
structure DispatcherSettings where
  eventParameter : String := "_eventName"
  sourcePageParameter : String := "_sourcePage"
  /-- The parameter with the fields of the page. -/
  fieldsPresentParameter : String := "__fp"
  defaultLocale : Locale := .us
  maxIndex : Nat := 10000

/-- Whether a parameter has a meaning of its own. -/
def DispatcherSettings.isSpecial (s : DispatcherSettings) (name : String) : Bool :=
  name == s.eventParameter || name == s.sourcePageParameter || name == s.fieldsPresentParameter

/-- What serves requests. -/
structure Dispatcher where
  router : Router
  converters : ConverterRegistry := .builtIn
  exceptions : ExceptionRegistry := {}
  manifest : ManifestCodec := .standard
  settings : DispatcherSettings := {}
  /-- New beans by the name of their type. -/
  freshBean : BeanId → Option Value

/-- What came of a request. -/
structure DispatchResult where
  outcome : Outcome
  event : Option String
  errors : FieldErrors := .empty
  bean : Option Value := none
  bindingErrors : List BindingError := []
  /-- The error that an exception handler took. -/
  handledError : Option DispatchError := none

/-- The way of a request: its stages, and its result or the error that nobody took. -/
structure Dispatch where
  stages : List Stage
  result : Except DispatchError DispatchResult

/-- The action and the event of a request, with all its parameters. -/
structure ResolvedRequest where
  binding : UrlBinding
  action : Action
  rules : RuleSet
  parameters : NameMap (List String)
  handler : EventHandler

/-- A request that failed, with what was known by then. -/
structure DispatchFailure where
  error : DispatchError
  handlerType : Option String := none
  event : Option String := none

/-- A bean that is bound and validated. -/
structure Preparation where
  bean : Value
  errors : FieldErrors
  refusals : List BindingError
  locale : Locale
  sourcePage : Option String

namespace Dispatcher

/-- Finds the action and the event of a request. -/
def resolve (d : Dispatcher) (r : Request) : Except DispatchFailure ResolvedRequest :=
  match d.router.match? r.path with
  | none => .error { error := .noBinding r.path }
  | some m =>
    match d.router.actions.find? (·.1.id == m.binding.target) with
    | none => .error { error := .routing (.unknownBeanType m.binding.target.name) }
    | some (action, rules) =>
      let parameters := r.withCaptured m.captured
      match action.resolveEvent r.event parameters m.pathInfo d.settings.eventParameter with
      | .error e => .error { error := .routing e, handlerType := some action.name }
      | .ok handler => .ok ⟨m.binding, action, rules, parameters, handler⟩

/-- Whether a parameter is not bound: special ones and those that name an event. -/
def skips (d : Dispatcher) (a : Action) (name : String) : Bool :=
  d.settings.isSpecial name || (a.handler? (eventName name)).isSome

/-- The fields that may be missing: a wizard asks only for the fields that its page lists, or for
the submitted ones if it lists none. -/
def requiredScope (d : Dispatcher) (r : ResolvedRequest) (bound : BindingReport) :
    RequiredScope :=
  if r.action.wizard then
    let listed := ((r.parameters.get? d.settings.fieldsPresentParameter).getD []).flatMap
      fun text => (d.manifest.decode text).getD []
    if listed.isEmpty then .ofManifest bound.submitted.names else .ofManifest listed
  else .all

/-- The errors after all validation: those of conversions, of the rules, and of the validators. -/
def validate (d : Dispatcher) (r : ResolvedRequest) (bean : Value) (bound : BindingReport) :
    FieldErrors :=
  if r.handler.skipsValidation then bound.errors
  else
    let event := r.handler.event
    let fields := r.rules.validate bound.fieldValues event (d.requiredScope r bound)
    CustomValidator.runAll r.action.validators bean event (bound.errors.merge fields)

/-- Binds the parameters to a new bean and validates it. -/
def prepare (d : Dispatcher) (request : Request) (r : ResolvedRequest) : Preparation :=
  let locale := request.locale.getD d.settings.defaultLocale
  let cx : BindContext :=
    { converters := d.converters, locale, maxIndex := d.settings.maxIndex
      freshBean := d.freshBean }
  let (bean, bound) :=
    bindParameters cx (d.skips r.action) r.parameters.entries r.action.freshBean
  { bean, locale, errors := d.validate r bean bound, refusals := bound.refusals
    sourcePage := (r.parameters.get? d.settings.sourcePageParameter).bind List.head? }

end Dispatcher

/-- Whether errors keep a handler from running. -/
def Preparation.blocked (p : Preparation) (h : EventHandler) : Bool :=
  !p.errors.isEmpty && !h.ignoresErrors && !h.skipsValidation

/-- The result of a request whose handler must not run. -/
def ResolvedRequest.redisplay (r : ResolvedRequest) (p : Preparation) : DispatchResult :=
  { outcome := .redisplay ⟨p.sourcePage, p.errors, r.parameters⟩, event := some r.handler.event
    errors := p.errors, bean := some p.bean, bindingErrors := p.refusals }

/-- Runs the handler of a request. -/
def ResolvedRequest.invoke (r : ResolvedRequest) (p : Preparation) (path : String) :
    Except DispatchFailure DispatchResult :=
  let event := r.handler.event
  let cx : ActionContext :=
    { path, urlBinding := r.binding.pattern.text, event, parameters := r.parameters
      locale := p.locale, sourcePage := p.sourcePage, errors := p.errors }
  match r.action.invoke r.handler p.bean cx with
  | .error failure =>
    .error { error := .handlerFailed r.action.name event failure
             handlerType := some r.action.name, event := some event }
  | .ok (outcome, bean, cx) =>
    .ok { outcome, event := some event, errors := cx.errors, bean := some bean
          bindingErrors := p.refusals }

namespace Dispatcher

/-- The stages of a request, and its result or its failure. -/
def run (d : Dispatcher) (request : Request) :
    List Stage × Except DispatchFailure DispatchResult :=
  match d.resolve request with
  | .error f => ([.resolveHandler, .failed], .error f)
  | .ok r =>
    let p := d.prepare request r
    let begun : List Stage := [.resolveHandler, .bindParameters, .validateCustom]
    if p.blocked r.handler then (begun ++ [.executeOutcome, .done], .ok (r.redisplay p))
    else
      match r.invoke p request.path with
      | .error f => (begun ++ [.invokeHandler, .failed], .error f)
      | .ok result => (begun ++ [.invokeHandler, .executeOutcome, .done], .ok result)

/-- Offers a failure to the exception handlers. -/
def recover (d : Dispatcher) (path : String) (f : DispatchFailure) :
    Except DispatchError DispatchResult :=
  match d.exceptions.handle f.error
      { path, event := f.event, handlerType := f.handlerType } with
  | some outcome => .ok { outcome, event := f.event, handledError := some f.error }
  | none => .error (.unhandled path f.error)

/-- Serves a request. -/
def dispatch (d : Dispatcher) (request : Request) : Dispatch :=
  match d.run request with
  | (stages, .ok result) => ⟨stages, .ok result⟩
  | (stages, .error f) => ⟨stages, d.recover request.path f⟩

end Dispatcher

end Formwork
