import Formwork.Bean

/-!
# Fields of beans

Short names for the types of fields and for the values that new beans have in them, and what a
handler reads from the fields of its bean.
-/

namespace Formwork.Fields

open Numeric

/-- An absent option of a type. -/
def optional (s : Schema) : Value := .absent s

/-- The type of an integer. -/
def integer (k : IntegerType) : Schema := .scalar (.integer k)

/-- The type of texts. -/
def text : Schema := .scalar .text

/-- The type of numbers of 64 bits. -/
def double : Schema := .scalar .double

/-- The type of a bean. -/
def bean (t : BeanType) : Schema := .bean t.id

/-- The type of maps that are kept by hash. -/
def hashMap (key : KeyType) (element : Schema) : Schema := .map ⟨true, key⟩ element

/-- The type of maps that are kept in order. -/
def orderedMap (key : KeyType) (element : Schema) : Schema := .map ⟨false, key⟩ element

/-- The initial value of a type without beans. -/
def initial (s : Schema) : Value :=
  (BindContext.initial? { converters := .empty, locale := .us, freshBean := fun _ => none } s).getD
    default

end Formwork.Fields

namespace Formwork.Value

/-- The single value in a field that may be absent. -/
def scalarIn? (bean : Value) (property : String) : Option Scalar :=
  match bean.child? (.property property) with
  | some (present (scalar s)) => some s
  | _ => none

/-- The number in a field. -/
def numberIn? (bean : Value) (property : String) : Option Float :=
  (bean.child? (.property property)).bind number?

/-- The whole number in a field that may be absent. -/
def integerIn? (bean : Value) (property : String) : Option Int :=
  (bean.scalarIn? property).bind fun s =>
    match s with
    | .integer _ n => some n
    | _ => none

/-- Whether a field is true. -/
def holdsIn (bean : Value) (property : String) : Bool :=
  match bean.child? (.property property) with
  | some (scalar (.bool b)) => b
  | _ => false

/-- The bean with another value in a field. -/
def putIn (target : Value) (name : String) (v : Value) : Value :=
  match target with
  | bean d fields => bean d (putField name v fields)
  | other => other

end Formwork.Value
