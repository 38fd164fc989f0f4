import Formwork.FieldError
import Formwork.Locale.Basic
import Formwork.Scalar

/-!
# Converters

A converter reads a submitted text for a locale. It gives a value, errors, or neither; a
`ConverterRegistry` chooses the converter of a type and drops the value of a conversion that gave
errors. A type of constants without a converter of its own is read by the names of its constants.

* `ConverterRegistry.convert`: the errors found so far stay in front, and there is a value only if
  nothing was appended to them.
-/

namespace Formwork

/-- What a converter produces. -/
inductive Converted where
  | scalar (s : Scalar)
  /-- The position of a constant in its enumeration. -/
  | ordinal (n : Nat)

/-- The answer of a converter. -/
structure ConversionResult where
  value : Option Converted := none
  errors : List FieldError := []

/-- Reads a text for a locale. -/
abbrev Converter := Locale → String → ConversionResult

/-- Why no conversion could be made, whatever the text. -/
inductive ConverterError where
  /-- The type has no converter. -/
  | notFound (type : ScalarType)
  /-- The converter gave a value of another type. -/
  | typeMismatch (type : ScalarType)

namespace ConverterError

/-- The type that was asked for. -/
def type : ConverterError → ScalarType
  | .notFound t => t
  | .typeMismatch t => t

/-- The text of the error. -/
def message : ConverterError → String
  | .notFound t => "No type converter registered for type " ++ t.name
  | .typeMismatch t =>
    "Type converter for " ++ t.name ++ " produced a value of an unexpected type"

end ConverterError

/-- The value as one of the type; a position is one of an enumeration that has it. -/
def Converted.toScalar? (t : ScalarType) : Converted → Option Scalar
  | .scalar s => if s.type = t then some s else none
  | .ordinal n =>
    match t with
    | .enumeration e => if n < e.constants.length then some (.enumeration e n) else none
    | _ => none

/-- Reads the name of a constant, letter by letter. -/
def constantConverter (constants : List String) : Converter := fun _ text =>
  match constants.findIdx? (· == text) with
  | some i => { value := some (.ordinal i) }
  | none =>
    { errors := [((FieldError.conversion "converter.enum.notAnEnumeratedValue").addParameter
        text).addParameter (String.intercalate ", " constants)] }

/-- Converters by type. -/
structure ConverterRegistry where
  converters : List (ScalarType × Converter) := []

namespace ConverterRegistry

/-- No converters. -/
def empty : ConverterRegistry := {}

instance : Inhabited ConverterRegistry := ⟨empty⟩

/-- The converter registered for a type. -/
def explicit? (r : ConverterRegistry) (t : ScalarType) : Option Converter :=
  (r.converters.find? fun e => e.1 = t).map (·.2)

/-- Registers the converter of a type, in place of an earlier one. -/
def add (r : ConverterRegistry) (t : ScalarType) (c : Converter) : ConverterRegistry :=
  if (r.explicit? t).isSome then
    ⟨r.converters.map fun e => if e.1 = t then (t, c) else e⟩
  else ⟨r.converters ++ [(t, c)]⟩

/-- The number of converters. -/
def size (r : ConverterRegistry) : Nat := r.converters.length

/-- The converter of a type: the registered one, or that of the constants. -/
def converter? (r : ConverterRegistry) (t : ScalarType) : Option Converter :=
  (r.explicit? t).or (t.constants?.map constantConverter)

/-- Converts a text to a value of a type and appends the errors to those found so far. -/
def convert (r : ConverterRegistry) (t : ScalarType) (l : Locale) (text : String)
    (errors : List FieldError) : Except ConverterError (Option Scalar × List FieldError) :=
  match r.converter? t with
  | none => .error (.notFound t)
  | some c =>
    let result := c l text
    if !result.errors.isEmpty then .ok (none, errors ++ result.errors)
    else
      match result.value with
      | none => .ok (none, errors)
      | some converted =>
        match converted.toScalar? t with
        | some s => .ok (some s, errors)
        | none => .error (.typeMismatch t)

end ConverterRegistry

end Formwork
