import Formwork.Text.Pattern.Engine
import Formwork.Validation.Scope

/-!
# Rules

A `FieldRule` declares what the submitted values of a field must be like. A `RuleSet` holds one
compiled rule for each field.

* `CompiledRule.compileWith`: the pattern of a rule is read by an engine, tied to both ends of a
  text.

* `RuleSet.build`: a later declaration takes the place of an earlier one of the same field.
* `RuleSet.nest`: the rules of a nested bean come behind those that are there, under the name of
  the property, unless the field has a rule already.
-/

namespace Formwork

/-- What the values of a field must be like. -/
structure FieldRule where
  /-- The path of the field without indexes. -/
  field : String
  required : Bool := false
  minLength : Option Nat := none
  maxLength : Option Nat := none
  minValue : Option Float := none
  maxValue : Option Float := none
  /-- A pattern for the whole of each value. -/
  pattern : Option String := none
  scope : EventScope := .all

/-- The rule for the field below another one. -/
def FieldRule.below (r : FieldRule) (outer : String) : FieldRule :=
  { r with field := outer ++ "." ++ r.field }

/-- Why a rule cannot be used. -/
inductive RuleError where
  /-- The engine cannot use the pattern; the fault is what the engine says. -/
  | invalidPattern (field pattern fault : String)
  | invalidLengths (field : String) (least greatest : Nat)
  deriving DecidableEq

/-- The text of the error. -/
def RuleError.message : RuleError → String
  | invalidPattern field pattern fault =>
    "Invalid pattern '" ++ pattern ++ "' for field '" ++ field ++ "': " ++ fault
  | invalidLengths field least greatest =>
    "Field '" ++ field ++ "': min_length " ++ toString least ++
      " is greater than max_length " ++ toString greatest

/-- A rule with its pattern, as an engine has read it. -/
structure CompiledRule (P : Type := Text.Pattern) where
  rule : FieldRule
  pattern : Option P

namespace CompiledRule

variable {P : Type}

/-- The field of the rule. -/
def field (c : CompiledRule P) : String := c.rule.field

/-- A pattern that is tied to both ends of a text. -/
def anchored (pattern : String) : String := "^(?:" ++ pattern ++ ")$"

/-- Reads the pattern of a rule, after a look at its lengths. -/
def compileWith (E : Text.PatternEngine P) (r : FieldRule) : Except RuleError (CompiledRule P) :=
  match r.minLength, r.maxLength with
  | some least, some greatest =>
    if greatest < least then .error (.invalidLengths r.field least greatest) else withPattern r
  | _, _ => withPattern r
where
  /-- Reads the pattern of a rule. -/
  withPattern (r : FieldRule) : Except RuleError (CompiledRule P) :=
    match r.pattern with
    | none => .ok ⟨r, none⟩
    | some p =>
      match E.compile (anchored p) with
      | .ok pattern => .ok ⟨r, some pattern⟩
      | .error fault => .error (.invalidPattern r.field p fault)

/-- Compiles a rule for the engine of `Text.Pattern`. -/
def compile (r : FieldRule) : Except RuleError CompiledRule := compileWith Text.Pattern.engine r

/-- Whether there are bounds for numbers. -/
def hasBounds (c : CompiledRule P) : Bool := c.rule.minValue.isSome || c.rule.maxValue.isSome

/-- The rule for the field below another one. -/
def below (c : CompiledRule P) (outer : String) : CompiledRule P :=
  { c with rule := c.rule.below outer }

end CompiledRule

/-- The rules of a bean type, one for each field. -/
structure RuleSet where
  rules : List CompiledRule := []

namespace RuleSet

/-- No rules. -/
def empty : RuleSet := {}

instance : Inhabited RuleSet := ⟨empty⟩

/-- The rule of a field. -/
def get? (s : RuleSet) (field : String) : Option CompiledRule := s.rules.find? (·.field == field)

/-- Whether a field has a rule. -/
def contains (s : RuleSet) (field : String) : Bool := s.rules.any (·.field == field)

/-- Puts a rule in the place of that of its field, or behind the others. -/
def insert (s : RuleSet) (c : CompiledRule) : RuleSet :=
  if s.contains c.field then ⟨s.rules.map fun d => if d.field == c.field then c else d⟩
  else ⟨s.rules ++ [c]⟩

/-- The set of declared rules; the first one that cannot be used stops it. -/
def build (declared : List FieldRule) : Except RuleError RuleSet :=
  (declared.mapM CompiledRule.compile).map fun rules => rules.foldl insert empty

/-- Adds the rules of a nested bean below a property, where the fields have no rules yet. -/
def nest (s : RuleSet) (outer : String) (nested : RuleSet) : RuleSet :=
  nested.rules.foldl (fun s c =>
    if s.contains (c.below outer).field then s else s.insert (c.below outer)) s

/-- The rules that count for an event. -/
def applicable (s : RuleSet) (event : String) : List CompiledRule :=
  s.rules.filter fun c => c.rule.scope.applies event

/-- The number of rules. -/
def size (s : RuleSet) : Nat := s.rules.length

end RuleSet

end Formwork
