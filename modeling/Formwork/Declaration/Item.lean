import Formwork.Declaration.Options
import Formwork.Declaration.TypeName

/-!
# Declarations of beans and enumerations

An item is declared with its fields or its variants. `Item.bean` makes the properties and the rules
of a bean type from it, `Item.enumeration` the constants of an enumeration.
-/

namespace Formwork.Declaration

/-- A declared field. -/
structure Field where
  name : String
  type : String
  options : List (List AttributeOption) := []
  rules : List (List AttributeOption) := []

/-- A declared variant, with what follows its name. -/
structure Variant where
  name : String
  payload : String := ""

/-- What an item is made of. -/
inductive Shape where
  | fields (l : List Field)
  | variants (l : List Variant)
  /-- Fields without names. -/
  | tuple
  | unit

/-- A declared item. -/
structure Item where
  name : String
  /-- What stands in angles behind the name. -/
  generics : String := ""
  shape : Shape
  options : List (List AttributeOption) := []

/-- Whether an item has parameters. -/
def Item.isGeneric (i : Item) : Bool :=
  !(i.generics.toList.filter fun c => !Text.isSpace c && c != '<' && c != '>').isEmpty

/-! ## Beans -/

/-- A bean type as its declaration makes it. -/
structure DeclaredBean where
  name : String
  /-- The properties with the fields behind them. -/
  properties : List (String × String) := []
  /-- The rules with the paths of their fields. -/
  rules : List (String × DeclaredRule) := []
  /-- The properties whose beans have rules of their own, with the types of those beans. -/
  nested : List (String × String) := []
  hasDefault : Bool := true

namespace DeclaredBean

/-- Adds a rule of a property. -/
def addRule (property type : String) (b : DeclaredBean) (options : List AttributeOption) :
    Except DeclarationError DeclaredBean := do
  let r ← DeclaredRule.ofOptions options
  if r.nested && r.field.isSome then throw .nestedField
  let nested := if r.nested then [(property, innerType type)] else []
  let rules := if r.isOwn then [(r.path property, r)] else []
  return { b with rules := b.rules ++ rules, nested := b.nested ++ nested }

/-- Adds a field, unless it is to be skipped. -/
def addField (b : DeclaredBean) (f : Field) : Except DeclarationError DeclaredBean := do
  let options ← FieldOptions.ofAttributes f.options
  if options.skipped then return b
  let property := options.name.getD (propertyName f.name)
  let behind := String.ofList (bareName f.name.toList)
  f.rules.foldlM (addRule property f.type)
    { b with properties := b.properties ++ [(property, behind)] }

end DeclaredBean

/-- The bean type that an item declares. -/
def Item.bean (i : Item) : Except DeclarationError DeclaredBean := do
  if i.isGeneric then throw .genericBean
  match i.shape with
  | .fields l =>
    let hasDefault ← readHasDefault i.options
    l.foldlM DeclaredBean.addField { name := i.name, hasDefault }
  | _ => throw .noNamedFields

/-! ## Enumerations -/

/-- Whether a variant has fields; a number behind its name is none. -/
def Variant.hasFields (v : Variant) : Bool :=
  (Text.trimLeft v.payload.toList).head?.any fun c => c == '(' || c == '\x7b'

/-- The constants of the enumeration that an item declares. -/
def Item.enumeration (i : Item) : Except DeclarationError (List String) :=
  match i.shape with
  | .variants l =>
    if l.isEmpty then .error .noVariants
    else if i.isGeneric then .error .genericEnumeration
    else if l.any Variant.hasFields then .error .variantWithFields
    else .ok (l.map (·.name))
  | _ => .error .noEnumeration

end Formwork.Declaration
