import Formwork.Bean.Fields
import Formwork.Sample.Converters

/-!
# The beans of the sample application

Beans of every shape: single values, options, sequences, maps, nested and recursive beans, a bean
without new instances, one whose pattern cannot be read, and one that declares a property twice.
-/

namespace Formwork.Sample

open Fields

/-- A property of every scalar type. -/
def scalars : BeanType := .ofFields "Scalars" <|
  let types : List (String × ScalarType) :=
    [("flag", .bool), ("aI8", .integer .int8), ("aI16", .integer .int16),
      ("aI32", .integer .int32), ("aI64", .integer .int64), ("aU8", .integer .nat8),
      ("aU16", .integer .nat16), ("aU32", .integer .nat32), ("aU64", .integer .nat64),
      ("aUsize", .integer .size), ("aF32", .single), ("aF64", .double), ("big", .bigInteger),
      ("decimal", .decimal), ("day", .date), ("text", .text), ("letter", .character),
      ("color", .enumeration color)]
  types.map fun t => (t.1, initial (.scalar t.2))

/-- Options with and without bounds. -/
def optionals : BeanType :=
  (BeanType.ofFields "Optionals"
    [("flag", optional (.scalar .bool)), ("small", optional (integer .int8)),
      ("ratio", optional double), ("big", optional (.scalar .bigInteger)),
      ("decimal", optional (.scalar .decimal)), ("day", optional (.scalar .date)),
      ("code", optional text), ("letter", optional (.scalar .character)),
      ("priority", optional (.scalar (.enumeration priority))),
      ("deep", optional (.option (integer .int32))), ("list", optional (.sequence double)),
      ("boxed", initial (.box (integer .int64)))]).withRules
    [{ field := "small", minValue := some (-5), maxValue := some 5 },
      { field := "ratio", minValue := some 0.5 }, { field := "big", maxValue := some 1000000 },
      { field := "decimal", minValue := some (-1.25), maxValue := some 99.99 },
      { field := "code", maxLength := some 3, pattern := some "[A-Z]+" }] []

/-- Somebody who signs in. -/
def person : BeanType :=
  (BeanType.ofFields "Person"
    [("username", optional text), ("password", optional text), ("age", optional (integer .nat8)),
      ("email", optional text)]).withRules
    [{ field := "username", required := true, minLength := some 5, maxLength := some 20 },
      { field := "password", required := true, minLength := some 5,
        scope := .ofEvents ["!reset"] },
      { field := "age", minValue := some 18, maxValue := some 120 },
      { field := "email", pattern := some "[^@\\s]+@[^@\\s]+" }] []

/-- An address as an order comes with it. -/
def addressFields (city : Option String) : List (String × Value) :=
  [("city", (city.map fun c => Value.present (.scalar (.text c))).getD (optional text)),
    ("zip", optional (integer .nat32))]

/-- An address, of which there is no new one. -/
def address : BeanType := (BeanType.ofFields "Address" (addressFields none)).withoutFresh

/-- A position of an order. -/
def lineItem : BeanType :=
  (BeanType.ofFields "LineItem"
    [("name", optional text), ("quantity", optional (integer .nat32)),
      ("price", optional (.scalar .decimal)), ("tags", initial (.sequence text))]).withRules
    [{ field := "name", required := true, minLength := some 3 },
      { field := "quantity", required := true, minValue := some 1, maxValue := some 100 },
      { field := "tags", maxLength := some 4 }] []

/-- An order with sequences, maps and nested beans. -/
def order : BeanType :=
  (BeanType.ofFields "Order"
    [("items", initial (.sequence (bean lineItem))),
      ("quantities", .sequence (integer .int64) [.scalar (.integer .int64 7)]),
      ("single", optional (integer .int64)),
      ("priority", optional (.scalar (.enumeration priority))),
      ("attributes", initial (hashMap .text text)),
      ("scores", initial (orderedMap (.integer .int32) (.sequence (integer .int64)))),
      ("weights", initial (hashMap (.integer .nat64) double)),
      ("shipping", optional (bean address)),
      ("fixed", .bean address.descriptor (addressFields (some "Oslo"))),
      ("owner", optional (.box (bean person))),
      ("addresses", initial (.sequence (bean address))),
      ("addressBook", initial (hashMap .text (bean address))),
      ("people", initial (orderedMap .text (bean person))),
      ("grid", initial (.sequence (.sequence (integer .nat8)))),
      ("matrix", optional (.sequence (.option double))),
      ("colors", initial (.sequence (.scalar (.enumeration color)))),
      ("ref", optional text), ("type", optional text),
      ("hiddenName", .scalar (.text "init"))]).withRules
    [{ field := "quantities", minValue := some 1, maxValue := some 10 },
      { field := "single", minValue := some 1, maxValue := some 10 },
      { field := "owner.username", maxLength := some 8 }]
    [("items", lineItem), ("owner", person)]

/-- A tree whose children are trees. -/
def treeNode : BeanType := .ofFields "TreeNode"
  [("label", optional text), ("weight", initial (integer .int32)),
    ("left", optional (.box (.bean "TreeNode"))),
    ("children", initial (.sequence (.bean "TreeNode"))),
    ("named", initial (orderedMap .text (.bean "TreeNode")))]

/-- Two numbers and what is made of them. -/
def calculator : BeanType :=
  (BeanType.ofFields "Calculator"
    [("numberOne", optional double), ("numberTwo", optional double),
      ("result", optional double)]).withRules
    [{ field := "numberOne", required := true }, { field := "numberTwo", required := true }] []

/-- A person with a password to confirm. -/
def register : BeanType :=
  (BeanType.ofFields "Register"
    [("user", optional (bean person)), ("confirmPassword", optional text)]).withRules
    [{ field := "confirmPassword", required := true, minLength := some 5 }] [("user", person)]

/-- The form of somebody who signs up. -/
def signup : BeanType :=
  (BeanType.ofFields "Signup"
    [("username", optional text), ("email", optional text), ("password", optional text),
      ("phones", initial (.sequence text)), ("acceptedTerms", initial (.scalar .bool))]).withRules
    [{ field := "username", required := true },
      { field := "email", required := true, pattern := some "^[^@\\s]+@[^@\\s]+$" },
      { field := "password", required := true, minLength := some 6 },
      { field := "phones", required := true, minLength := some 2 }] []

/-- Money that goes from one account to another. -/
def transfer : BeanType :=
  (BeanType.ofFields "Transfer"
    [("amount", optional (integer .int64)), ("account", optional text), ("kind", optional text),
      ("confirmed", initial (.scalar .bool)), ("save", optional text)]).withRules
    [{ field := "amount", required := true, minValue := some 1 },
      { field := "account", required := true, scope := .ofEvents ["!preview"] },
      { field := "kind", required := true, pattern := some "a|b",
        scope := .ofEvents ["submit"] }] []

/-- A report of something that does not work. -/
def bug : BeanType :=
  (BeanType.ofFields "Bug"
    [("id", optional (integer .nat32)), ("description", optional text),
      ("priority", optional (.scalar (.enumeration priority))),
      ("attachments", initial (.sequence (bean lineItem)))]).withRules
    [{ field := "description", required := true, minLength := some 10,
       maxLength := some 2000 }] [("attachments", lineItem)]

/-- A bean whose pattern cannot be read. -/
def badPattern : BeanType :=
  (BeanType.ofFields "BadPattern" [("zip", optional text)]).withRules
    [{ field := "zip", pattern := some "([0-9" }] []

/-- A bean without properties. -/
def emptyBean : BeanType := .ofFields "Empty" []

/-- A bean that declares `city` twice. -/
def manual : BeanType where
  descriptor := .declared "Manual" [("city", "city"), ("zip", "zip"), ("city", "town")]
  fields? := some
    [("city", initial text), ("town", initial text), ("zip", optional (integer .nat32))]

/-- All beans. -/
def catalogue : BeanCatalogue :=
  [scalars, optionals, person, address, lineItem, order, treeNode, calculator, register, signup,
    transfer, bug, badPattern, emptyBean, manual]

/-- Types that are bound without a bean around them. -/
def rootTypes : List Schema :=
  [.sequence (.option (integer .int32)), .sequence double, .sequence (.scalar .bool),
    .sequence (.sequence (integer .nat8)), hashMap .text (.sequence (integer .int64)),
    hashMap .text double, hashMap (.integer .int64) (hashMap .text (integer .int32)),
    orderedMap (.integer .nat32) text,
    orderedMap (.integer .size) (.option (.scalar (.enumeration color))),
    .option (integer .int64), .option (.sequence (integer .int64)), .box (.option (bean person)),
    text, integer .int32]

/-- The initial value of a root: a bean of the catalogue, or one of the other types. -/
def root? (name : String) : Option Value :=
  (catalogue.fresh? name).or ((rootTypes.find? (·.name == name)).map initial)

/-- Binding with the beans of the catalogue. -/
def bindContext (converters : ConverterRegistry) (locale : Locale) : BindContext :=
  { converters, locale, freshBean := catalogue.fresh? }

end Formwork.Sample
