import Formwork.FieldError
import Formwork.Json

/-!
# Validation errors as data

A page that writes its own messages gets the errors as JSON.
-/

namespace Formwork

/-- The name of an error's kind. -/
def ErrorKind.name : ErrorKind → String
  | .conversion => "conversion"
  | .constraint => "constraint"
  | .custom => "custom"

/-- The source of a message as an object. -/
def MessageSource.toJson : MessageSource → Json
  | .template text => .object [("type", .text "simple"), ("value", .text text)]
  | .key k => .object [("type", .text "localizable"), ("value", .text k)]

/-- An error as an object. -/
def FieldError.toJson (e : FieldError) : Json :=
  .object
    [("field_name", .ofText? e.field), ("message", e.source.toJson),
      ("parameters", .texts e.parameters), ("field_value", .ofText? e.value),
      ("kind", .text e.kind.name)]

/-- A list of errors. -/
def FieldError.listJson (errors : List FieldError) : Json := .list (errors.map FieldError.toJson)

/-- The errors of each field. -/
def FieldErrors.toJson (es : FieldErrors) : Json :=
  .object (es.byField.entries.map fun e => (e.1, FieldError.listJson e.2))

end Formwork
