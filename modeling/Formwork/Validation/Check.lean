import Formwork.FieldError
import Formwork.Numeric.Binary
import Formwork.Text.Blank
import Formwork.Text.Pattern.Engine

/-!
# Checks

Each check looks at submitted texts or at a number and gives an error without a field, or nothing.
-/

namespace Formwork.Check

/-- The error of a value that is missing. -/
def missing : FieldError := .constraint "validation.required.valueNotPresent"

/-- Asks for a value that is not blank. -/
def required (values : List String) : Option FieldError :=
  if values.all Text.isBlank then some missing else none

/-- Asks for a number of characters, both bounds included. -/
def length (value : String) (least greatest : Option Nat) : Option FieldError :=
  let count := value.toList.length
  match least.filter (count < ·), greatest.filter (· < count) with
  | some bound, _ =>
    some ((FieldError.constraint "validation.minlength.valueTooShort").addParameter
      (toString bound))
  | none, some bound =>
    some ((FieldError.constraint "validation.maxlength.valueTooLong").addParameter (toString bound))
  | none, none => none

/-- Asks for a number between bounds, both included. -/
def range (value : Float) (least greatest : Option Float) : Option FieldError :=
  match least.filter (value < ·), greatest.filter (· < value) with
  | some bound, _ =>
    some ((FieldError.constraint "validation.minvalue.valueBelowMinimum").addParameter
      (Numeric.floatText bound))
  | none, some bound =>
    some ((FieldError.constraint "validation.maxvalue.valueAboveMaximum").addParameter
      (Numeric.floatText bound))
  | none, none => none

/-- Asks for a text in which an engine finds the pattern. -/
def maskWith {P : Type} (E : Text.PatternEngine P) (value : String) (pattern : P) :
    Option FieldError :=
  if E.isMatch pattern value then none
  else some (.constraint "validation.mask.valueDoesNotMatch")

/-- Asks for a text in which the pattern matches. -/
def mask (value : String) (pattern : Text.Pattern) : Option FieldError :=
  maskWith Text.Pattern.engine value pattern

end Formwork.Check
