import Formwork.Property.Access
import Formwork.Validation.Rule

/-!
# Bean types

A bean type has a table of its properties, the fields of a new bean, if there can be one, and the
rules for its submitted fields. A catalogue lists the bean types of an application.
-/

namespace Formwork

/-- A bean type. -/
structure BeanType where
  descriptor : BeanDescriptor
  /-- The fields of a new bean. -/
  fields? : Option (List (String × Value)) := none
  rules : Except RuleError RuleSet := .ok .empty

namespace BeanType

instance : Inhabited BeanType := ⟨{ descriptor := .empty default }⟩

/-- The identity of the type. -/
def id (t : BeanType) : BeanId := t.descriptor.id

/-- The name of the type. -/
def name (t : BeanType) : String := t.descriptor.typeName

/-- A new bean. -/
def fresh? (t : BeanType) : Option Value := t.fields?.map (.bean t.descriptor)

/-- The type whose properties are its fields, and which new beans have the given values of. -/
def ofFields (id : BeanId) (fields : List (String × Value)) : BeanType where
  descriptor := .declared id (fields.map fun f => (f.1, f.1))
  fields? := some fields

/-- The type without new beans. -/
def withoutFresh (t : BeanType) : BeanType := { t with fields? := none }

/-- The type with declared rules, followed by those of nested beans below their properties. -/
def withRules (t : BeanType) (declared : List FieldRule)
    (nested : List (String × BeanType)) : BeanType :=
  let rules := nested.foldl (fun rules n =>
    match rules, n.2.rules with
    | .ok s, .ok inner => .ok (s.nest n.1 inner)
    | .error e, _ => .error e
    | .ok _, .error e => .error e) (RuleSet.build declared)
  { t with rules }

end BeanType

/-- The bean types of an application. -/
abbrev BeanCatalogue := List BeanType

namespace BeanCatalogue

/-- The bean type of an identity. -/
def find? (c : BeanCatalogue) (id : BeanId) : Option BeanType := List.find? (·.id == id) c

/-- A new bean of the type of an identity. -/
def fresh? (c : BeanCatalogue) (id : BeanId) : Option Value := (find? c id).bind BeanType.fresh?

end BeanCatalogue

end Formwork
