import Formwork.FieldError
import Formwork.Validation.Scope

/-!
# Validators

A validator looks at a bean as it was bound and may add errors. Some run only as long as there is
no error.
-/

namespace Formwork

/-- When a validator runs. -/
inductive ValidatorTrigger where
  | always
  | noErrors
  deriving DecidableEq

/-- A check of a whole bean. -/
structure CustomValidator (β : Type) where
  name : String
  scope : EventScope := .all
  trigger : ValidatorTrigger := .always
  check : β → FieldErrors → FieldErrors

namespace CustomValidator

variable {β : Type}

/-- Whether the validator runs, given the errors so far. -/
def runs (v : CustomValidator β) (event : String) (errors : FieldErrors) : Bool :=
  v.scope.applies event && (v.trigger == .always || errors.isEmpty)

/-- Runs the validators one after the other. -/
def runAll (validators : List (CustomValidator β)) (bean : β) (event : String)
    (errors : FieldErrors) : FieldErrors :=
  validators.foldl (fun errors v => if v.runs event errors then v.check bean errors else errors)
    errors

end CustomValidator

end Formwork
