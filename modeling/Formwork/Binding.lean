import Formwork.NameMap
import Formwork.Property.Binding
import Formwork.Validation.Fields

/-!
# Binding a request

`bindParameters` binds the parameters of a request one after the other. The report has one outcome
for each of them: bound, with its numbers; failed, with the failures of the conversion; or refused,
because its name is no path or leads nowhere.
-/

namespace Formwork

/-- Why a parameter could not be bound. -/
inductive BindingError where
  | invalidPath (path : String) (cause : PathError)
  | property (path : String) (cause : PropertyError)

namespace BindingError

/-- The parameter. -/
def path : BindingError → String
  | invalidPath path _ | property path _ => path

/-- The text of the error. -/
def message : BindingError → String
  | invalidPath path cause => "invalid property path '" ++ path ++ "': " ++ cause.message
  | property path cause => "cannot bind '" ++ path ++ "': " ++ cause.message

end BindingError

/-- What came of one parameter. -/
inductive BindingOutcome where
  | bound (numbers : List Float)
  | failed (failures : List ConversionFailure)
  | refused (e : BindingError)

/-- A parameter with its values, without white space at their ends, and what came of it. -/
structure BoundParameter where
  name : String
  values : List String
  outcome : BindingOutcome

/-- What binding the parameters of a request gave. -/
structure BindingReport where
  parameters : List BoundParameter := []
  /-- The errors of conversions, and those added later. -/
  errors : FieldErrors := .empty

namespace BindingReport

/-- The report on a parameter. -/
def find? (r : BindingReport) (name : String) : Option BoundParameter :=
  r.parameters.find? (·.name == name)

/-- The submitted values by parameter. -/
def submitted (r : BindingReport) : NameMap (List String) :=
  .ofList (r.parameters.map fun p => (p.name, p.values))

/-- The parameters that were bound. -/
def boundNames (r : BindingReport) : List String :=
  r.parameters.filterMap fun p => if p.outcome matches .bound _ then some p.name else none

/-- Whether a parameter was bound. -/
def isBound (r : BindingReport) (name : String) : Bool :=
  (r.find? name).any fun p => p.outcome matches .bound _

/-- Whether a value of a parameter could not be converted. -/
def conversionFailed (r : BindingReport) (name : String) : Bool :=
  (r.find? name).any fun p => p.outcome matches .failed _

/-- The numbers of a parameter. -/
def numbers (r : BindingReport) (name : String) : List Float :=
  match (r.find? name).map BoundParameter.outcome with
  | some (.bound numbers) => numbers
  | _ => []

/-- The errors of the parameters that were refused, in order. -/
def refusals (r : BindingReport) : List BindingError :=
  r.parameters.filterMap fun p => match p.outcome with
    | .refused e => some e
    | _ => none

/-- Adds an error. -/
def addError (r : BindingReport) (field : String) (e : FieldError) : BindingReport :=
  { r with errors := r.errors.add field e }

/-- The report as the checks see it. -/
def fieldValues (r : BindingReport) : FieldValues where
  names := r.submitted.names
  submitted name := r.submitted.get? name
  numbers := r.numbers
  conversionFailed := r.conversionFailed

/-- The errors of failed conversions under the name of a parameter. -/
def failureErrors (name : String) (failures : List ConversionFailure) :
    List (String × FieldError) :=
  failures.map fun f => (name, f.error.setField name (some f.value))

/-- Appends what came of a parameter. -/
def record (r : BindingReport) (p : BoundParameter) : BindingReport :=
  { parameters := r.parameters ++ [p]
    errors := match p.outcome with
      | .failed failures => r.errors.addAll (failureErrors p.name failures)
      | _ => r.errors }

end BindingReport

/-- Binds one parameter: the bean afterwards, and what came of it. -/
def bindParameter (cx : BindContext) (name : String) (values : List String) (bean : Value) :
    Value × BindingOutcome :=
  match PropertyPath.parse name with
  | .error e => (bean, .refused (.invalidPath name e))
  | .ok path =>
    match bean.bind cx values path.segments with
    | (bean, .error e) => (bean, .refused (.property name e))
    | (bean, .ok []) => (bean, .bound ((bean.resolve path.segments).map Value.numbers |>.getD []))
    | (bean, .ok failures) => (bean, .failed failures)

/-- Binds one parameter and reports it. -/
def bindNext (cx : BindContext) (state : Value × BindingReport) (p : String × List String) :
    Value × BindingReport :=
  let values := p.2.map Text.trim
  let (bean, outcome) := bindParameter cx p.1 values state.1
  (bean, state.2.record ⟨p.1, values, outcome⟩)

/-- Binds the parameters that are not to be skipped. -/
def bindParameters (cx : BindContext) (skip : String → Bool)
    (parameters : List (String × List String)) (bean : Value) : Value × BindingReport :=
  (parameters.filter fun p => !skip p.1).foldl (bindNext cx) (bean, {})

end Formwork
