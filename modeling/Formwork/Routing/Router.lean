import Formwork.Action
import Formwork.Routing.Pattern
import Formwork.Text.Quoted

/-!
# Routing

A router is built from actions. Building refuses whatever would make the choice of an action or of
an event ambiguous, so a request path has one most specific pattern.

* `Router.build`: the checks.
* `Router.match?`: the most specific pattern that matches a path.
* `Action.resolveEvent`: the event that a request means.
-/

namespace Formwork

/-- Why a router cannot be built, or an event not be found. -/
inductive RouterError where
  | duplicateBinding (existing existingType conflicting conflictingType : String)
  | handlerNotFound (type event : String)
  | defaultHandlerNotFound (type : String)
  | duplicateEvent (type event : String)
  | multipleDefaultHandlers (type : String) (events : List String)
  | unknownBeanType (type : String)
  | duplicateBeanType (type : String)
  | invalidPattern (pattern : String) (fault : PatternFault)
  | invalidValidation (type : String) (cause : RuleError)
  deriving DecidableEq

namespace RouterError

/-- The text of the error. -/
def message : RouterError → String
  | duplicateBinding existing existingType conflicting conflictingType =>
    "URL binding '" ++ conflicting ++ "' of " ++ conflictingType ++ " overlaps '" ++ existing ++
      "' of " ++ existingType
  | handlerNotFound type event => "No handler for event '" ++ event ++ "' in " ++ type
  | defaultHandlerNotFound type => "No default handler in " ++ type
  | duplicateEvent type event =>
    "Event '" ++ event ++ "' is declared more than once in " ++ type
  | multipleDefaultHandlers type events =>
    type ++ " declares more than one default handler: " ++ Text.quotedList events
  | unknownBeanType type => type ++ " is not registered as an action bean"
  | duplicateBeanType type => type ++ " is registered more than once"
  | invalidPattern pattern fault => "Invalid URL binding '" ++ pattern ++ "': " ++ fault.reason
  | invalidValidation type cause =>
    "Invalid validation declaration on " ++ type ++ ": " ++ cause.message

end RouterError

/-- A pattern with the bean type of its action. -/
structure UrlBinding where
  pattern : AddressPattern
  target : BeanId

namespace UrlBinding

/-- Reads the pattern of a bean type. -/
def parse (pattern : String) (target : BeanId) : Except RouterError UrlBinding :=
  match AddressPattern.parse pattern with
  | .ok p => .ok ⟨p, target⟩
  | .error fault => .error (.invalidPattern pattern fault)

/-- The binding as text. -/
def display (b : UrlBinding) : String := b.pattern.text ++ " -> " ++ b.target.name

end UrlBinding

/-- A binding that matches a path: the captured values, and what follows in the path. -/
structure RouteMatch where
  binding : UrlBinding
  captured : List (String × String)
  pathInfo : Option String

/-- Matches a path, given by its segments. -/
def UrlBinding.match? (b : UrlBinding) (segments : List String) : Option RouteMatch :=
  (AddressPattern.matchSegments b.pattern.segments segments).map fun (captured, left) =>
    ⟨b, captured, if left.isEmpty then none else some ("/" ++ String.intercalate "/" left)⟩

/-- Actions by address. -/
structure Router where
  bindings : List UrlBinding := []
  actions : List (Action × RuleSet) := []

namespace Router

/-- The action of a bean type. -/
def action? (r : Router) (type : BeanId) : Option Action :=
  (r.actions.find? (·.1.id == type)).map (·.1)

/-- The match that is at least as specific as any other; the last one of equals. -/
def mostSpecific (found : List RouteMatch) : Option RouteMatch :=
  found.foldl (fun best m =>
    match best with
    | none => some m
    | some b => if m.binding.pattern.covers b.binding.pattern then some m else some b) none

/-- The most specific binding that matches a path. -/
def match? (r : Router) (path : String) : Option RouteMatch :=
  mostSpecific (r.bindings.filterMap fun b => b.match? (pathSegments path))

/-- The pattern that matches a path. -/
def pattern? (r : Router) (path : String) : Option String :=
  (r.match? path).map (·.binding.pattern.text)

/-- The pattern of a bean type. -/
def urlFor? (r : Router) (type : BeanId) : Option String := (r.action? type).map (·.urlBinding)

end Router

/-- The first event that a list names a second time. -/
def repeatedEvent? (seen : List String) : List String → Option String
  | [] => none
  | e :: rest => if seen.contains e then some e else repeatedEvent? (e :: seen) rest

/-- Checks that the events are distinct and at most one is the default. -/
def Action.checkHandlers (a : Action) : Except RouterError Unit :=
  match repeatedEvent? [] (a.handlers.map (·.event)) with
  | some event => .error (.duplicateEvent a.name event)
  | none =>
    let defaults := (a.handlers.filter (·.isDefault)).map (·.event)
    if 1 < defaults.length then .error (.multipleDefaultHandlers a.name defaults) else .ok ()

namespace Router

/-- Adds an action after all checks. -/
def add (r : Router) (a : Action) : Except RouterError Router := do
  if (r.action? a.id).isSome then throw (.duplicateBeanType a.name)
  a.checkHandlers
  let binding ← UrlBinding.parse a.urlBinding a.id
  match r.bindings.find? (·.pattern.ambiguousWith binding.pattern) with
  | some b => throw (.duplicateBinding b.pattern.text b.target.name binding.pattern.text a.name)
  | none =>
    match a.bean.rules with
    | .error e => throw (.invalidValidation a.name e)
    | .ok rules => return ⟨r.bindings ++ [binding], r.actions ++ [(a, rules)]⟩

/-- Builds a router from actions in order; the first one that fails a check stops it. -/
def build (actions : List Action) : Except RouterError Router := actions.foldlM add {}

/-- The action of a bean type, which must be registered. -/
def require (r : Router) (type : BeanId) : Except RouterError Action :=
  match r.action? type with
  | some a => .ok a
  | none => .error (.unknownBeanType type.name)

/-- The handler of an event of a bean type. -/
def handlerFor (r : Router) (type : BeanId) (event : String) : Except RouterError EventHandler := do
  let a ← r.require type
  match a.handler? event with
  | some h => return h
  | none => throw (.handlerNotFound a.name event)

/-- The default handler of a bean type. -/
def defaultHandlerFor (r : Router) (type : BeanId) : Except RouterError EventHandler := do
  let a ← r.require type
  match a.defaultHandler? with
  | some h => return h
  | none => throw (.defaultHandlerNotFound a.name)

end Router

/-- The event that a parameter names: an image button adds `.x` or `.y` to it. -/
def eventName (parameter : String) : String :=
  match parameter.toList.reverse with
  | 'x' :: '.' :: rest | 'y' :: '.' :: rest => String.ofList rest.reverse
  | _ => parameter

/-- The event that a request means: the one that it states, the one in the event parameter, one that
a parameter is named after, one that follows the pattern in the path, or the default. Only the first
two have to be events of the action. -/
def Action.resolveEvent (a : Action) (stated : Option String)
    (parameters : NameMap (List String)) (pathInfo : Option String) (eventParameter : String) :
    Except RouterError EventHandler :=
  let named (event : String) : Except RouterError EventHandler :=
    match a.handler? event with
    | some h => .ok h
    | none => .error (.handlerNotFound a.name event)
  let special := (((parameters.get? eventParameter).getD []).map Text.trim).find?
    fun v => !v.isEmpty
  match stated.or special with
  | some event => named event
  | none =>
    let byParameter := parameters.names.findSome? fun n => a.handler? (eventName n)
    let byPath := (pathInfo.bind fun info => (pathSegments info).head?).bind a.handler?
    match (byParameter.or byPath).or a.defaultHandler? with
    | some h => .ok h
    | none => .error (.defaultHandlerNotFound a.name)

/-- The outcome with an event as a parameter without a value. -/
def Outcome.withEvent (o : Outcome) (event : Option String) : Outcome :=
  match event with
  | some event => o.addParameter event []
  | none => o

namespace Router

/-- Forwards to an event of a registered bean type. -/
def forwardTo? (r : Router) (type : BeanId) (event : Option String) : Option Outcome :=
  (r.urlFor? type).map fun path => (Outcome.forward { path }).withEvent event

/-- Redirects to an event of a registered bean type. -/
def redirectTo? (r : Router) (type : BeanId) (event : Option String) : Option Outcome :=
  (r.urlFor? type).map fun path => (Outcome.redirect { path }).withEvent event

end Router

end Formwork
