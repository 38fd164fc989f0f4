import Formwork.Json
import Formwork.Property.Descriptor
import Formwork.Text.Blank

/-!
# Values of properties

Every value knows its type, also where it has no elements. A bean carries its descriptor, which has
the field behind each property.

* `Value.schema`: the type of a value.
* `Value.snapshot`: the value as JSON.
* `Value.numbers`: the numbers that bounds are checked against.
-/

namespace Formwork

/-- A key of a map. -/
inductive MapKey where
  | text (s : String)
  | integer (n : Int)
  deriving DecidableEq

namespace MapKey

/-- The key as text. -/
def display : MapKey → String
  | .text s => s
  | .integer n => Numeric.integerText n

/-- The order of the keys of a map. -/
def before : MapKey → MapKey → Bool
  | .text a, .text b => a < b
  | .integer a, .integer b => a < b
  | .integer _, .text _ => true
  | .text _, .integer _ => false

/-- Reads a key: a text stays as it is, and white space around a number does not count. -/
def read? (t : KeyType) (raw : String) : Option MapKey :=
  match t with
  | .text => some (.text raw)
  | .integer k => (Numeric.readInteger k (Text.trimChars raw.toList)).map .integer

end MapKey

/-- A bean type whose properties are the fields of its beans: the accessors of a property are the
name of the field behind it. -/
abbrev BeanDescriptor := Descriptor String

/-- The field behind a property. -/
abbrev BeanDescriptor.field? (d : BeanDescriptor) (property : String) : Option String :=
  d.accessor? property

/-- A value of a property. The entries of a map are in the order of their keys. -/
inductive Value where
  | scalar (s : Scalar)
  | absent (inner : Schema)
  | present (v : Value)
  | boxed (v : Value)
  | sequence (element : Schema) (items : List Value)
  | map (kind : MapKind) (element : Schema) (entries : List (MapKey × Value))
  | bean (d : BeanDescriptor) (fields : List (String × Value))

namespace Value

instance : Inhabited Value := ⟨scalar (.bool false)⟩

/-- The type of a value. -/
def schema : Value → Schema
  | scalar s => .scalar s.type
  | absent inner => .option inner
  | present v => .option v.schema
  | boxed v => .box v.schema
  | sequence element _ => .sequence element
  | map kind element _ => .map kind element
  | bean d _ => .bean d.id

/-- The name of the type as a property reports it; a box reports what is in it. -/
def typeName : Value → String
  | boxed v => v.typeName
  | v => v.schema.name

/-- The value as a number. -/
def number? : Value → Option Float
  | scalar s => s.number?
  | present v | boxed v => v.number?
  | _ => none

/-- The values as numbers: those of the elements of a sequence, or the value itself. -/
def numbers : Value → List Float
  | scalar s => s.number?.toList
  | present v | boxed v => v.numbers
  | sequence _ items => items.filterMap number?
  | _ => []

end Value

/-- A single value as JSON: numbers of fixed width are numbers, and all others are texts. -/
def Scalar.snapshot : Scalar → Json
  | .bool b => .bool b
  | .integer _ n => .integer n
  | .single x | .double x => .ofFloat x
  | s => .text s.display

namespace Value

mutual

/-- The value as JSON. A bean is the object of its properties. -/
def snapshot : Value → Json
  | scalar s => s.snapshot
  | absent _ => .null
  | present v | boxed v => snapshot v
  | sequence _ items => .list (snapshots items)
  | map _ _ entries => .object (entrySnapshots entries)
  | bean d fields =>
    let shown := fieldSnapshots fields
    .object (d.shown fun field => shown.lookup field)

/-- The elements of a sequence as JSON. -/
def snapshots : List Value → List Json
  | [] => []
  | v :: rest => snapshot v :: snapshots rest

/-- The entries of a map as fields of an object. -/
def entrySnapshots : List (MapKey × Value) → List (String × Json)
  | [] => []
  | (k, v) :: rest => (k.display, snapshot v) :: entrySnapshots rest

/-- The fields of a bean as JSON. -/
def fieldSnapshots : List (String × Value) → List (String × Json)
  | [] => []
  | (name, v) :: rest => (name, snapshot v) :: fieldSnapshots rest

end

end Value

end Formwork
