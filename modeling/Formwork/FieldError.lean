import Formwork.NameMap

/-!
# Validation errors

A `FieldError` says what is wrong with a submitted value; its message is found when the page is
written. `FieldErrors` collects errors by field, in the order in which they came in for each field.
-/

namespace Formwork

/-- Where the text of an error comes from. -/
inductive MessageSource where
  /-- A template given with the error. -/
  | template (text : String)
  /-- The key of a template. -/
  | key (key : String)
  deriving DecidableEq

/-- What raised an error. -/
inductive ErrorKind where
  /-- The text could not be converted. -/
  | conversion
  /-- A declared rule does not hold. -/
  | constraint
  /-- A validator of its own. -/
  | custom
  deriving DecidableEq

/-- An error of a submitted value. Parameters fill the places `{2}`, `{3}` and so on of the
template; the field's label and the submitted value fill the first two. -/
structure FieldError where
  source : MessageSource
  kind : ErrorKind
  parameters : List String := []
  field : Option String := none
  value : Option String := none
  deriving DecidableEq

namespace FieldError

/-- An error with a template of its own. -/
def simple (text : String) : FieldError := { source := .template text, kind := .custom }

/-- An error with the key of a template. -/
def localizable (key : String) : FieldError := { source := .key key, kind := .custom }

/-- An error of a conversion. -/
def conversion (key : String) : FieldError := { source := .key key, kind := .conversion }

/-- An error of a declared rule. -/
def constraint (key : String) : FieldError := { source := .key key, kind := .constraint }

/-- Appends a parameter. -/
def addParameter (e : FieldError) (p : String) : FieldError :=
  { e with parameters := e.parameters ++ [p] }

/-- Names the field, and the submitted value if there is one. -/
def setField (e : FieldError) (field : String) (value : Option String) : FieldError :=
  { e with field := some field, value := value.or e.value }

/-- Names the field unless the error already names one. -/
def inField (e : FieldError) (field : String) : FieldError :=
  { e with field := some (e.field.getD field) }

/-- The key of the template. -/
def key? (e : FieldError) : Option String :=
  match e.source with
  | .key key => some key
  | .template _ => none

end FieldError

/-- Errors by field, in ascending order of the field. -/
structure FieldErrors where
  byField : NameMap (List FieldError)
  deriving DecidableEq

namespace FieldErrors

/-- No errors. -/
def empty : FieldErrors := ⟨.empty⟩

instance : Inhabited FieldErrors := ⟨empty⟩

/-- The name under which errors of the whole page are kept. -/
def pageField : String := "__page"

/-- Appends errors to those of a field. -/
def append (es : FieldErrors) (field : String) (more : List FieldError) : FieldErrors :=
  ⟨es.byField.upsert field fun old => old.getD [] ++ more⟩

/-- Adds an error to a field; an error without a field name takes that of the field. -/
def add (es : FieldErrors) (field : String) (e : FieldError) : FieldErrors :=
  es.append field [e.inField field]

/-- Adds an error of the whole page. -/
def addGlobal (es : FieldErrors) (e : FieldError) : FieldErrors := es.append pageField [e]

/-- Adds errors given with their fields, from the first to the last. -/
def addAll (es : FieldErrors) (errors : List (String × FieldError)) : FieldErrors :=
  errors.foldl (fun es e => es.add e.1 e.2) es

/-- The errors of a field. -/
def get? (es : FieldErrors) (field : String) : Option (List FieldError) := es.byField.get? field

/-- Whether a field has errors. -/
def hasErrors (es : FieldErrors) (field : String) : Bool :=
  (es.get? field).any fun l => !l.isEmpty

/-- Whether a field has an error of its conversion. -/
def hasConversionError (es : FieldErrors) (field : String) : Bool :=
  (es.get? field).any fun l => l.any fun e => e.kind == .conversion

/-- Whether there is no error. -/
def isEmpty (es : FieldErrors) : Bool := es.byField.values.all List.isEmpty

/-- The number of errors. -/
def size (es : FieldErrors) : Nat := (es.byField.values.map List.length).foldr (· + ·) 0

/-- The fields with errors, in ascending order. -/
def fields (es : FieldErrors) : List String := es.byField.names

/-- Appends the errors of another collection, field by field. -/
def merge (es other : FieldErrors) : FieldErrors :=
  other.byField.entries.foldl (fun es e => es.append e.1 e.2) es

end FieldErrors

end Formwork
