import Formwork.Property.Access

/-!
# Assigning submitted values

What a submission makes of a property depends on the property's type alone: it leaves the property
as it is, gives it a new value, or fails. So an assignment that fails changes nothing.
-/

namespace Formwork

/-- A submitted text that could not be converted, and why. -/
structure ConversionFailure where
  value : String
  error : FieldError
  deriving DecidableEq

/-- What a submission makes of a property. -/
inductive Assignment where
  | unchanged
  | replaced (v : Value)
  | failed (failures : List ConversionFailure)

namespace Assignment

/-- The value of a property that had an initial value, unless the submission failed. -/
def from? (initial : Value) : Assignment → Option Value
  | unchanged => some initial
  | replaced v => some v
  | failed _ => none

/-- The failures. -/
def failures : Assignment → List ConversionFailure
  | failed l => l
  | _ => []

/-- The new value seen from a value around it. -/
def map (f : Value → Value) : Assignment → Assignment
  | replaced v => replaced (f v)
  | a => a

/-- The property afterwards. -/
def apply (v : Value) : Assignment → Value
  | replaced w => w
  | _ => v

end Assignment

/-- Whether all submitted values are blank. -/
def allBlank (values : List String) : Bool := values.all Text.isBlank

/-- What a submission makes of a single value: its first value that is not blank is converted. -/
def BindContext.assignScalar (cx : BindContext) (t : ScalarType) (values : List String) :
    Except PropertyError Assignment :=
  match (values.map Text.trim).find? fun v => !v.isEmpty with
  | none => .ok .unchanged
  | some raw =>
    match cx.converters.convert t cx.locale raw [] with
    | .error e => .error (.converter e)
    | .ok (some s, _) => .ok (.replaced (.scalar s))
    | .ok (none, []) => .ok .unchanged
    | .ok (none, errors) => .ok (.failed (errors.map fun e => ⟨raw, e⟩))

/-- Puts the elements of a sequence together, or all their failures. -/
def assignedItems (element : Schema) (fresh : Value) (parts : List Assignment) : Assignment :=
  let failures := parts.flatMap Assignment.failures
  if failures.isEmpty then
    .replaced (.sequence element (parts.filterMap (Assignment.from? fresh)))
  else .failed failures

/-- What a submission makes of a property of a type. Blank values make an option absent; a sequence
converts every value that is not blank on its own. -/
def BindContext.assignment (cx : BindContext) :
    Schema → List String → Except PropertyError Assignment
  | .scalar t, values => cx.assignScalar t values
  | .option inner, values =>
    if allBlank values then .ok (.replaced (.absent inner))
    else
      match cx.initial? inner with
      | none => .error (.uninstantiable inner.name)
      | some fresh =>
        (cx.assignment inner values).map fun a =>
          match a with
          | .failed l => .failed l
          | .replaced v => .replaced (.present v)
          | .unchanged => .replaced (.present fresh)
  | .box inner, values => (cx.assignment inner values).map (Assignment.map .boxed)
  | .sequence element, values =>
    match values.filter fun v => !Text.isBlank v, cx.initial? element with
    | [], _ => .ok (.replaced (.sequence element []))
    | _ :: _, none => .error (.uninstantiable element.name)
    | submitted, some fresh =>
      (submitted.mapM fun v => cx.assignment element [v]).map (assignedItems element fresh)
  | .map kind element, _ => .error (.notAssignable (Schema.map kind element).name)
  | .bean id, _ => .error (.notAssignable id.name)

/-- Assigns submitted values: the property afterwards, and the failures. -/
def Value.assign (cx : BindContext) (values : List String) (v : Value) :
    Except PropertyError (Value × List ConversionFailure) :=
  (cx.assignment v.schema values).map fun a => (a.apply v, a.failures)

end Formwork
