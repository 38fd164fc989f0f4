import Formwork.Numeric.Integer
import Formwork.Text.Unicode.Case
import Formwork.Text.Blank
import Formwork.Toml.Basic

/-!
# Configuration values

`ConfigValue` has the values that a configuration key stands for, and their readings as a text, an
integer or a truth value. `TomlValue.leaves` lists the values of a TOML document under their dotted
keys.
-/

namespace Formwork

/-- The value of a configuration key. -/
inductive ConfigValue where
  | text (s : String)
  | integer (n : Int)
  | float (x : Float)
  | bool (b : Bool)
  | list (items : List ConfigValue)
  | object (entries : List (String × ConfigValue))

namespace ConfigValue

instance : Inhabited ConfigValue := ⟨bool false⟩

/-- The value as a text; only texts are. -/
def text? : ConfigValue → Option String
  | text s => some s
  | _ => none

/-- The value as an integer: an integer, or a text that writes one. -/
def integer? : ConfigValue → Option Int
  | integer n => some n
  | text s => Numeric.readInteger .int64 (Text.trimChars s.toList)
  | _ => none

/-- The value as a truth value: a truth value, or a word for one in any case. -/
def bool? : ConfigValue → Option Bool
  | bool b => some b
  | text s =>
    match Text.toLower (Text.trim s) with
    | "true" | "yes" | "1" => some true
    | "false" | "no" | "0" => some false
    | _ => none
  | _ => none

end ConfigValue

namespace TomlValue

mutual

/-- The value as a configuration value; a date is its text. -/
def toConfig : TomlValue → ConfigValue
  | text s | moment s => .text s
  | integer n => .integer n
  | float x => .float x
  | bool b => .bool b
  | list items => .list (configItems items)
  | table entries => .object (configEntries entries)

/-- The items of a list as configuration values. -/
def configItems : List TomlValue → List ConfigValue
  | [] => []
  | v :: rest => v.toConfig :: configItems rest

/-- The entries of a table as configuration values. -/
def configEntries : List (String × TomlValue) → List (String × ConfigValue)
  | [] => []
  | (name, v) :: rest => (name, v.toConfig) :: configEntries rest

end

/-- The key of a name below another key. -/
def keyBelow (key name : String) : String := if key.isEmpty then name else key ++ "." ++ name

mutual

/-- The values that are no tables, under their dotted keys. -/
def leaves (key : String) : TomlValue → List (String × ConfigValue)
  | table entries => entryLeaves key entries
  | v => [(key, v.toConfig)]

/-- The values below a key that are no tables. -/
def entryLeaves (key : String) : List (String × TomlValue) → List (String × ConfigValue)
  | [] => []
  | (name, v) :: rest => leaves (keyBelow key name) v ++ entryLeaves key rest

end

end TomlValue

end Formwork
