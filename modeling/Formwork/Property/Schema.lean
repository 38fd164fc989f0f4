import Formwork.Scalar

/-!
# Types of properties

A property is a single value, an optional, boxed, repeated or keyed property, or a bean. A bean type
is known by its identity, which is more than its name.
-/

namespace Formwork

open Numeric

/-- The types of map keys. -/
inductive KeyType where
  | text
  | integer (k : IntegerType)
  deriving DecidableEq

/-- The name of a key type in messages. -/
def KeyType.name : KeyType → String
  | .text => "String"
  | .integer k => k.name

/-- The kinds of maps: what their keys are, and whether they are kept by hash. -/
structure MapKind where
  hashed : Bool
  key : KeyType
  deriving DecidableEq

/-- The identity of a bean type. Messages say its name; the path of the module that declares it tells
types of one name apart. -/
structure BeanId where
  name : String
  path : String := ""
  deriving DecidableEq, Inhabited

/-- The name behind the path of the module. -/
def BeanId.fullName (id : BeanId) : String :=
  if id.path.isEmpty then id.name else id.path ++ "::" ++ id.name

/-- A name alone stands for the type of that name without a path. -/
instance : Coe String BeanId := ⟨fun name => { name }⟩

/-- The types of properties. -/
inductive Schema where
  | scalar (t : ScalarType)
  /-- A value that may be absent. -/
  | option (inner : Schema)
  /-- A value in a place of its own. -/
  | box (inner : Schema)
  | sequence (element : Schema)
  | map (kind : MapKind) (element : Schema)
  | bean (id : BeanId)
  deriving DecidableEq

/-- The name of a type in messages. -/
def Schema.name : Schema → String
  | .scalar t => t.name
  | .option inner => "Option<" ++ inner.name ++ ">"
  | .box inner => "Box<" ++ inner.name ++ ">"
  | .sequence element => "Vec<" ++ element.name ++ ">"
  | .map kind element =>
    (if kind.hashed then "HashMap<" else "BTreeMap<") ++ kind.key.name ++ ", " ++ element.name ++
      ">"
  | .bean id => id.name

end Formwork
