import Formwork.FieldError
import Formwork.FieldName
import Formwork.Locale.Basic
import Formwork.Message.Template
import Formwork.Text.Naming

/-!
# Message bundles

Templates are registered by the tag of a locale and by key. A key is looked up under the whole
locale, then under its language, then in the default bundle, and last among the templates that are
always there.
-/

namespace Formwork

/-- Templates by the tag of a locale, with the empty tag for the default bundle, and by key. -/
structure MessageBundles where
  bundles : NameMap (NameMap String) := .empty

namespace MessageBundles

/-- No templates but those that are always there. -/
def empty : MessageBundles := {}

instance : Inhabited MessageBundles := ⟨empty⟩

/-- The templates that are always there. -/
def builtIn : List (String × String) :=
  [("validation.required.valueNotPresent", "\x7b0\x7d is a required field"),
    ("validation.minlength.valueTooShort", "\x7b0\x7d must be at least \x7b2\x7d characters long"),
    ("validation.maxlength.valueTooLong",
      "\x7b0\x7d must be no more than \x7b2\x7d characters long"),
    ("validation.minvalue.valueBelowMinimum",
      "The minimum allowed value for \x7b0\x7d is \x7b2\x7d"),
    ("validation.maxvalue.valueAboveMaximum",
      "The maximum allowed value for \x7b0\x7d is \x7b2\x7d"),
    ("validation.mask.valueDoesNotMatch", "\x7b1\x7d is not a valid \x7b0\x7d"),
    ("converter.number.invalidNumber",
      "The value (\x7b1\x7d) entered in field \x7b0\x7d must be a valid number"),
    ("converter.number.outOfRange",
      "The value (\x7b1\x7d) entered in field \x7b0\x7d was out of the range \x7b2\x7d " ++
        "to \x7b3\x7d"),
    ("converter.date.invalidDate",
      "The value (\x7b1\x7d) entered in field \x7b0\x7d must be a valid date"),
    ("converter.enum.notAnEnumeratedValue",
      "The value \"\x7b2\x7d\" is not a valid value for field \x7b0\x7d; " ++
        "valid values are: \x7b3\x7d")]

/-- Registers a template in the bundle of a tag, in place of an earlier one. -/
def addToBundle (b : MessageBundles) (tag key template : String) : MessageBundles :=
  ⟨b.bundles.upsert tag fun old => (old.getD .empty).insert key template⟩

/-- Registers a template for a locale, or in the default bundle. -/
def add (b : MessageBundles) (locale : Option Locale) (key template : String) : MessageBundles :=
  b.addToBundle ((locale.map Locale.tag).getD "") key template

/-- The template of a key in the bundle of a tag. -/
def inBundle? (b : MessageBundles) (tag key : String) : Option String :=
  (b.bundles.get? tag).bind (·.get? key)

/-- The template of a key for a locale. -/
def template? (b : MessageBundles) (l : Locale) (key : String) : Option String :=
  (b.inBundle? l.tag key).or <| (b.inBundle? l.language key).or <|
    (b.inBundle? "" key).or (builtIn.lookup key)

/-- The template of a key on a page: that of the key with the page's address in front goes before
that of the key alone. -/
def scoped? (b : MessageBundles) (l : Locale) (page : Option String) (key : String) :
    Option String :=
  (page.bind fun p => b.template? l (p ++ "." ++ key)).or (b.template? l key)

/-- The label of a field: a registered one, or else the words of its name. -/
def fieldLabel (b : MessageBundles) (l : Locale) (page : Option String) (parameter : String) :
    String :=
  let field := fieldName parameter
  (b.scoped? l page field).getD (Text.label field)

end MessageBundles

/-- The template of an error; a key without a template stands for itself. -/
def FieldError.template (e : FieldError) (b : MessageBundles) (l : Locale)
    (page : Option String) : String :=
  match e.source with
  | .template text => text
  | .key key => (b.scoped? l page key).getD key

/-- The text of an error for a page: the label of its field, its value and its parameters in the
places of its template. -/
def FieldError.render (e : FieldError) (b : MessageBundles) (l : Locale) (page : Option String) :
    String :=
  let label := (e.field.map fun f => b.fieldLabel l page f).getD ""
  formatTemplate (e.template b l page) (label :: e.value.getD "" :: e.parameters)

/-- The texts of all errors by field. -/
def FieldErrors.render (es : FieldErrors) (b : MessageBundles) (l : Locale)
    (page : Option String) : NameMap (List String) :=
  es.byField.map fun errors => errors.map fun e => e.render b l page

end Formwork
