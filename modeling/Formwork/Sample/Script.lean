import Formwork.Binding
import Formwork.Dispatch.Exceptions
import Formwork.Sample.Catalogue

/-!
# Scripts of the sample application

The handlers of the sample application are scripts: steps that change the bean or the context, and
an end that gives the outcome. Conditions say when a validator adds its error, and a rule of the
exception handlers forwards to a page that shows where the error arose.
-/

namespace Formwork.Sample

/-! ## Errors -/

/-- No record has the number. -/
def recordNotFound (record : Nat) : Cause :=
  { kind := "RecordNotFound", text := "record " ++ toString record ++ " not found"
    record := some record }

/-- The failure of a look-up. -/
def missingRecord (record : Nat) : Failure := { outermost := recordNotFound record }

/-- The failure of a store that misses a record. -/
def storeFailure (record : Nat) : Failure :=
  { outermost := { kind := "RepositoryError", text := "repository failed" }
    inner := [recordNotFound record] }

/-- The failure of a step that names no path. -/
def pathFailure (e : PathError) : Failure := .message e.message

/-- The failure of a step whose path leads nowhere. -/
def propertyFailure (e : PropertyError) : Failure := .message e.message

/-- The failure of a step whose values cannot be bound. -/
def bindingFailure (path : String) (e : PropertyError) : Failure :=
  .wrapped (BindingError.property path e).message (propertyFailure e)

/-! ## Steps -/

/-- A step of a script. -/
abbrev Step := Value → ActionContext → Except Failure (Value × ActionContext)

/-- The end of a script. -/
abbrev Ending := Value → ActionContext → HandlerAnswer

/-- Binding of the texts in a script. -/
def scriptContext : BindContext := bindContext .builtIn .us

/-- Binds values at a path; values that cannot be converted are passed over. -/
def setStep (path : String) (values : List String) : Step := fun bean cx =>
  match PropertyPath.parse path with
  | .error e => .error (pathFailure e)
  | .ok p =>
    match bean.bind scriptContext values p.segments with
    | (_, .error e) => .error (bindingFailure path e)
    | (bean, .ok _) => .ok (bean, cx)

/-- Stores a number in an optional number; all other values stay. -/
def storeNumber (x : Float) (v : Value) : Value × Except PropertyError Unit :=
  (if v.schema = .option Fields.double then .present (.scalar (.double x)) else v, .ok ())

/-- The number at the end of a path. -/
def numberAt? (bean : Value) (p : PropertyPath) : Option Float :=
  (bean.resolve p.segments).bind Value.number?

/-- Adds two numbers of the bean or divides them. A missing number counts as zero, a missing divisor
as one. -/
def arithmeticStep (adds : Bool) (left right target : String) : Step := fun bean cx =>
  let paths := do
    return (← PropertyPath.parse left, ← PropertyPath.parse right, ← PropertyPath.parse target)
  match paths with
  | .error e => .error (pathFailure e)
  | .ok (a, b, t) =>
    let x := (numberAt? bean a).getD 0
    let y := (numberAt? bean b).getD (if adds then 0 else 1)
    let result := if adds then x + y else x / y
    match bean.descend scriptContext (storeNumber result) t.segments with
    | (_, .error e) => .error (propertyFailure e)
    | (bean, .ok _) => .ok (bean, cx)

/-- Adds errors to those of the request. -/
def errorStep (errors : List (String × FieldError)) : Step := fun bean cx =>
  .ok (bean, { cx with errors := cx.errors.addAll errors })

/-! ## Ends -/

/-- Ends with an outcome. -/
def conclude (outcome : Outcome) : Ending := fun bean cx => .ok (outcome, bean, cx)

/-- Ends with the page that the request came from. -/
def redisplay : Ending := fun bean cx => .ok (cx.redisplay, bean, cx)

/-- Ends with a failure. -/
def fail (f : Failure) : Ending := fun _ _ => .error f

/-- The page that shows the context of a request, with the first values of some parameters. -/
def contextPage (cx : ActionContext) (names : List String) : Outcome :=
  (Outcome.toPath "/context").addParameters <|
    [("path", [cx.path]), ("binding", [cx.urlBinding]), ("event", [cx.event]),
      ("locale", [cx.locale.tag]), ("source_page", cx.sourcePage.toList),
      ("names", cx.parameters.names), ("error_fields", cx.errors.fields)] ++
    names.map fun n => (n, (cx.first? n).toList)

/-- Ends with the page that shows the context. -/
def showContext (names : List String) : Ending := fun bean cx =>
  .ok (contextPage cx names, bean, cx)

/-- Ends as the handler of another action does. -/
def delegate (action : Option Action) (event : String) : Ending := fun bean cx =>
  match action.bind fun a => (a.handler? event).map fun h => (a, h) with
  | some (a, h) => a.invoke h bean cx
  | none => .error (.message "no such event")

/-- Runs the steps one after the other, and then the end. -/
def runScript (steps : List Step) (ending : Ending) (bean : Value) (cx : ActionContext) :
    HandlerAnswer :=
  match steps.foldlM (fun (s : Value × ActionContext) step => step s.1 s.2) (bean, cx) with
  | .error f => .error f
  | .ok (bean, cx) => ending bean cx

/-! ## Conditions -/

/-- When a validator adds its error. -/
inductive Condition where
  | missing (path : String)
  | number (path : String) (x : Float)
  | below (path : String) (x : Float)
  | value (path : String) (j : Json)
  | differ (path other : String)
  | always

/-- The value at a path, if there is one. -/
def valueAt? (bean : Value) (path : String) : Option Value :=
  (PropertyPath.parse path).toOption.bind fun p => bean.resolve p.segments

/-- The value at a path as JSON. -/
def shownAt? (bean : Value) (path : String) : Option Json := (valueAt? bean path).map Value.snapshot

/-- Whether a condition holds of a bean. -/
def Condition.holds (bean : Value) : Condition → Bool
  | missing path => (shownAt? bean path).all (·.same .null)
  | number path x => ((valueAt? bean path).bind Value.number?).any (· == x)
  | below path x => ((valueAt? bean path).bind Value.number?).any (· < x)
  | value path j => (shownAt? bean path).any (·.same j)
  | differ path other =>
    match shownAt? bean path, shownAt? bean other with
    | some a, some b => !a.same b
    | none, none => false
    | _, _ => true
  | always => true

/-- A validator that adds an error to a field, or to the whole form, where a condition holds. -/
def conditional (condition : Condition) (field : Option String) (e : FieldError) (bean : Value)
    (errors : FieldErrors) : FieldErrors :=
  if condition.holds bean then
    match field with
    | some field => errors.add field e
    | none => errors.addGlobal e
  else errors

/-! ## Exception handlers -/

/-- The page that shows where an error arose. -/
def errorPage (path : String) (c : Cause) (cx : ExceptionContext) : Option Outcome :=
  some <| (Outcome.toPath path).addParameters
    [("error", [c.text]), ("path", [cx.path]), ("event", cx.event.toList),
      ("handler", cx.handlerType.toList)]

/-- A handler that declines. -/
def declined (_ : Cause) (_ : ExceptionContext) : Option Outcome := none

/-- Whether a text contains a part. -/
def hasPart (part : List Char) : List Char → Bool
  | [] => part.isEmpty
  | c :: rest => part.isPrefixOf (c :: rest) || hasPart part rest

/-- A handler of all errors whose text has a part. -/
def textHandler (name part : String) (handle : Cause → ExceptionContext → Option Outcome) :
    ExceptionHandler :=
  { name, handle, canHandle := fun c => hasPart part.toList c.text.toList }

end Formwork.Sample
