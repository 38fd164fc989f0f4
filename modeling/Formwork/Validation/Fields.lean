import Formwork.Validation.Check
import Formwork.Validation.Rule

/-!
# Checking submitted fields

The rules of a bean are checked in their order, each on every parameter of its field. A blank
parameter gives at most the error that it is missing, and nothing if its whole row is blank. For
any other parameter the lengths are checked, then the bounds of its numbers, then its pattern;
bounds and pattern only if it could be converted.
-/

namespace Formwork

/-- What the checks know about a submission. -/
structure FieldValues where
  /-- The names of the parameters. -/
  names : List String
  /-- The submitted values of a parameter. -/
  submitted : String → Option (List String)
  /-- The numbers of a parameter, in the order of its values that are not blank. -/
  numbers : String → List Float
  /-- Whether a value of a parameter could not be converted. -/
  conversionFailed : String → Bool

namespace FieldValues

/-- The values of a parameter; none if it was not submitted. -/
def values (v : FieldValues) (name : String) : List String := (v.submitted name).getD []

/-- The name up to its last closing bracket. -/
def row? (name : String) : Option (List Char) :=
  match name.toList.reverse.dropWhile (· != ']') with
  | [] => none
  | l => some l.reverse

/-- Whether a parameter belongs to a row. -/
def isInRow (row : List Char) (name : String) : Bool :=
  row.isPrefixOf name.toList &&
    match name.toList.drop row.length with
    | [] => true
    | c :: _ => c == '.' || c == '['

/-- Whether the parameter belongs to a row in which all values are blank. -/
def isBlankRow (v : FieldValues) (name : String) : Bool :=
  match row? name with
  | none => false
  | some row => (v.names.filter (isInRow row)).all fun n => (v.values n).all Text.isBlank

/-- The values of a parameter that are not blank, without white space at their ends. -/
def present (v : FieldValues) (name : String) : List String :=
  ((v.values name).map Text.trim).filter fun s => !s.isEmpty

end FieldValues

namespace CompiledRule

/-- The errors of the lengths of a parameter's values. -/
def lengthErrors (c : CompiledRule) (v : FieldValues) (name : String) : List FieldError :=
  (v.present name).filterMap fun s =>
    (Check.length s c.rule.minLength c.rule.maxLength).map (·.setField name (some s))

/-- The errors of the numbers of a parameter. -/
def rangeErrors (c : CompiledRule) (v : FieldValues) (name : String) : List FieldError :=
  if c.hasBounds then
    ((v.present name).zip (v.numbers name)).filterMap fun (s, x) =>
      (Check.range x c.rule.minValue c.rule.maxValue).map (·.setField name (some s))
  else []

/-- The errors of a parameter's values that do not match. -/
def maskErrors (c : CompiledRule) (v : FieldValues) (name : String) : List FieldError :=
  match c.pattern with
  | none => []
  | some p =>
    (v.present name).filterMap fun s => (Check.mask s p).map (·.setField name (some s))

/-- The errors of one parameter. -/
def parameterErrors (c : CompiledRule) (v : FieldValues) (name : String) : List FieldError :=
  match Check.required (v.values name) with
  | some e => if c.rule.required && !v.isBlankRow name then [e] else []
  | none =>
    c.lengthErrors v name ++
      if v.conversionFailed name then [] else c.rangeErrors v name ++ c.maskErrors v name

/-- The errors of the rule with the parameters that they belong to. -/
def errors (c : CompiledRule) (v : FieldValues) (scope : RequiredScope) :
    List (String × FieldError) :=
  match v.names.filter fun name => fieldName name == c.field with
  | [] => if c.rule.required && scope.requires c.field then [(c.field, Check.missing)] else []
  | names => names.flatMap fun name => (c.parameterErrors v name).map fun e => (name, e)

end CompiledRule

/-- The names in ascending order. -/
def FieldValues.sorted (v : FieldValues) : FieldValues :=
  { v with names := v.names.mergeSort fun a b => decide (a ≤ b) }

/-- Checks the rules that count for an event. -/
def RuleSet.validate (s : RuleSet) (v : FieldValues) (event : String) (scope : RequiredScope) :
    FieldErrors :=
  FieldErrors.empty.addAll ((s.applicable event).flatMap fun c => c.errors v.sorted scope)

end Formwork
