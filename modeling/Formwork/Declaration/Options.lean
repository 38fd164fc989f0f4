import Formwork.Declaration.Literal

/-!
# Options of declarations

An attribute is a list of options, each with a value or without one. `DeclaredRule.ofOptions` reads
the options of a validation rule, `FieldOptions.ofAttributes` those of a field. The first option
that cannot be read stops the reading.
-/

namespace Formwork.Declaration

/-- The value of an option. -/
inductive OptionValue where
  /-- A text in quotes. -/
  | text (s : String)
  /-- Anything else, as it is written. -/
  | code (s : String)

/-- An option of an attribute. -/
structure AttributeOption where
  key : String
  value : Option OptionValue

/-- Why a declaration is refused. -/
inductive DeclarationError where
  | missingValue
  | missingComma
  | notInteger
  | notText
  | notNumeric
  | tooLarge
  | negative
  | noRuleName
  | unknownRule (name : String)
  | unknownFieldOption
  | unknownBeanOption
  | crossedLengths (least greatest : Nat)
  | nestedField
  | genericBean
  | noNamedFields
  | noEnumeration
  | noVariants
  | genericEnumeration
  | variantWithFields
  deriving DecidableEq

/-- The text of the error. -/
def DeclarationError.message : DeclarationError → String
  | missingValue => "expected `=`"
  | missingComma => "expected `,`"
  | notInteger => "expected integer literal"
  | notText => "expected string literal"
  | notNumeric => "expected a numeric literal"
  | tooLarge => "number too large to fit in target type"
  | negative => "invalid digit found in string"
  | noRuleName => "expected a validation rule name"
  | unknownRule name => "unknown validation rule `" ++ name ++ "`"
  | unknownFieldOption =>
    "unsupported bean option, expected `rename` or `skip`"
  | unknownBeanOption => "unsupported bean option, expected `no_default`"
  | crossedLengths least greatest =>
    "min_length " ++ toString least ++ " is greater than max_length " ++ toString greatest
  | nestedField => "`nested` cannot be combined with `field`"
  | genericBean => "#[derive(Bean)] does not support generic types"
  | noNamedFields => "#[derive(Bean)] requires a struct with named fields"
  | noEnumeration => "#[derive(Enumerated)] only supports enums"
  | noVariants => "#[derive(Enumerated)] requires at least one variant"
  | genericEnumeration => "#[derive(Enumerated)] does not support generic enums"
  | variantWithFields => "enum variants must not carry fields"

/-! ## Values -/

/-- An option without a value. -/
def AttributeOption.flag (o : AttributeOption) : Except DeclarationError Unit :=
  if o.value.isSome then .error .missingComma else .ok ()

/-- The text of an option. -/
def AttributeOption.text (o : AttributeOption) : Except DeclarationError String :=
  match o.value with
  | some (.text s) => .ok s
  | some (.code _) => .error .notText
  | none => .error .missingValue

/-- The greatest length. -/
def greatestLength : Nat := 0xffffffffffffffff

/-- The length that an option gives. -/
def AttributeOption.length (o : AttributeOption) : Except DeclarationError Nat :=
  match o.value with
  | none => .error .missingValue
  | some (.text _) => .error .notInteger
  | some (.code s) =>
    match readSignedInteger s.toList with
    | none => .error .notInteger
    | some ((isNegative, n), rest) =>
      if isNegative then .error .negative
      else if greatestLength < n then .error .tooLarge
      else if Text.trimLeft rest = [] then .ok n
      else .error .missingComma

/-- Whether what follows a number makes it part of a longer expression. -/
def continuesExpression (rest : List Char) : Bool :=
  let word := rest.takeWhile Text.Unicode.isIdentifierPart
  word == "as".toList || rest.head?.any "+-*/%^&|<>=.?([".toList.contains ||
    "!=".toList.isPrefixOf rest

/-- The number that an option gives. -/
def AttributeOption.number (o : AttributeOption) : Except DeclarationError Float :=
  match o.value with
  | none => .error .missingValue
  | some (.text _) => .error .notNumeric
  | some (.code s) =>
    match readNumeric s with
    | some (x, []) => .ok x
    | some (_, rest) => .error (if continuesExpression rest then .notNumeric else .missingComma)
    | none => .error .notNumeric

/-! ## Rules -/

/-- A declared rule. -/
structure DeclaredRule where
  /-- The field below the property that the rule is about. -/
  field : Option String := none
  required : Bool := false
  minLength : Option Nat := none
  maxLength : Option Nat := none
  minValue : Option Float := none
  maxValue : Option Float := none
  pattern : Option String := none
  /-- The events that the rule counts for. -/
  events : List String := []
  /-- The rules of the bean in the property count as well. -/
  nested : Bool := false

namespace DeclaredRule

/-- The names between commas, without white space and blank names. -/
def eventNames (text : String) : List String :=
  (((text.toList.splitOn ',').map Text.trimChars).filter fun e => !e.isEmpty).map String.ofList

/-- Adds an option; the last one of a key counts. -/
def addOption (r : DeclaredRule) (o : AttributeOption) : Except DeclarationError DeclaredRule :=
  match o.key with
  | "required" => o.flag.map fun _ => { r with required := true }
  | "nested" => o.flag.map fun _ => { r with nested := true }
  | "min_length" => o.length.map fun n => { r with minLength := some n }
  | "max_length" => o.length.map fun n => { r with maxLength := some n }
  | "min_value" => o.number.map fun x => { r with minValue := some x }
  | "max_value" => o.number.map fun x => { r with maxValue := some x }
  | "pattern" => o.text.map fun s => { r with pattern := some s }
  | "on" => o.text.map fun s => { r with events := eventNames s }
  | "field" => o.text.map fun s => { r with field := some s }
  | key => .error (if key.toList.contains ':' then .noRuleName else .unknownRule key)

/-- Checks that a text can be as long as it has to be. -/
def checkLengths (r : DeclaredRule) : Except DeclarationError DeclaredRule :=
  match r.minLength, r.maxLength with
  | some least, some greatest =>
    if greatest < least then .error (.crossedLengths least greatest) else .ok r
  | _, _ => .ok r

/-- Reads a rule. -/
def ofOptions (options : List AttributeOption) : Except DeclarationError DeclaredRule :=
  (options.foldlM addOption {}).bind checkLengths

/-- Whether the rule checks anything. -/
def hasChecks (r : DeclaredRule) : Bool :=
  r.required || r.minLength.isSome || r.maxLength.isSome || r.minValue.isSome ||
    r.maxValue.isSome || r.pattern.isSome

/-- Whether the rule is one of its own, beyond those of the bean in the property. -/
def isOwn (r : DeclaredRule) : Bool := r.hasChecks || (!r.nested && !r.events.isEmpty)

/-- The path of the field that the rule is about. -/
def path (r : DeclaredRule) (property : String) : String :=
  match r.field with
  | some field => property ++ "." ++ field
  | none => property

end DeclaredRule

/-! ## Fields -/

/-- How a field is a property. -/
structure FieldOptions where
  name : Option String := none
  skipped : Bool := false

namespace FieldOptions

/-- Adds an option. -/
def addOption (f : FieldOptions) (o : AttributeOption) : Except DeclarationError FieldOptions :=
  match o.key with
  | "skip" => o.flag.map fun _ => { f with skipped := true }
  | "rename" => o.text.map fun s => { f with name := some s }
  | _ => .error .unknownFieldOption

/-- Reads the options of a field. -/
def ofAttributes (attributes : List (List AttributeOption)) :
    Except DeclarationError FieldOptions :=
  attributes.flatten.foldlM addOption {}

end FieldOptions

/-- Whether a bean type has a new bean, which its options may deny. -/
def readHasDefault (attributes : List (List AttributeOption)) : Except DeclarationError Bool :=
  attributes.flatten.foldlM (fun _ o =>
    if o.key = "no_default" then o.flag.map fun _ => false else .error .unknownBeanOption) true

end Formwork.Declaration
