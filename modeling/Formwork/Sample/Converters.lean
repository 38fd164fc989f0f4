import Formwork.Conversion.BuiltIn

/-!
# Converters of the sample application

The sample application has two enumerations and replaces some converters: one never fails, one
gives a value of another type, one gives nothing, and one gives errors together with a value.
-/

namespace Formwork.Sample

open Numeric

/-- How urgent a thing is. -/
def priority : Enumeration := ⟨"Priority", ["Low", "Normal", "High"]⟩

/-- A color, with constants in several spellings. -/
def color : Enumeration := ⟨"Color", ["Red", "DarkBlue", "lime_green"]⟩

/-- Reads a priority in any case; every other text is a normal one. -/
def priorityConverter : Converter := fun _ text =>
  let ordinal := match Text.toLower text with
    | "low" => 0
    | "high" => 2
    | _ => 1
  .found (.enumeration priority ordinal)

/-- The built-in converters with those of the sample application in their place. -/
def converters : ConverterRegistry :=
  (((ConverterRegistry.builtIn.add (.enumeration priority) priorityConverter).add
    (.integer .int32) fun _ text => .found (.text text)).add
    (.integer .nat8) fun _ _ => {}).add
    (.integer .int16) fun _ text =>
      { value := some (.scalar (.integer .int16 1))
        errors := [.simple "first",
          (FieldError.conversion "custom.bad").addParameter (toString text.utf8ByteSize)] }

end Formwork.Sample
