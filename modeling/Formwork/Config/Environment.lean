import Formwork.Config.Value
import Formwork.NameMap
import Formwork.Toml.Document

/-!
# Configuration sources

A source has values for keys and a priority. `Environment.get?` asks the sources from the greatest
priority on, and sources of one priority in the order in which they were added.
-/

namespace Formwork

/-- A source of configuration values. -/
structure PropertySource where
  name : String
  /-- Sources with greater numbers are asked first. -/
  priority : Int
  get? : String → Option ConfigValue

/-- Why a configuration file cannot be used. -/
inductive ConfigError where
  | unreadable (path : String)
  | malformed (name : String)
  deriving DecidableEq

namespace PropertySource

/-- A source with values for some keys. -/
def ofMap (name : String) (values : NameMap ConfigValue) (priority : Int := 50) : PropertySource :=
  { name, priority, get? := values.get? }

/-- The name of the variable for a key. -/
def variableName (start key : String) : String :=
  start ++ Text.toUpper (String.ofList
    (key.toList.map fun c => if c == '.' || c == '-' then '_' else c))

/-- The variables whose names have a common start. -/
def ofVariables (start : String) (getVar : String → Option String) : PropertySource where
  name := "environment"
  priority := 100
  get? key := (getVar (variableName start key)).map .text

/-- The values of a TOML document under their dotted keys; of one key the last value counts. -/
def ofToml (name : String) (document : TomlValue) (priority : Int := 0) : PropertySource :=
  ofMap name (.ofList (document.leaves "")) priority

/-- The values of a TOML text. -/
def parseToml (name text : String) (priority : Int := 0) : Except ConfigError PropertySource :=
  match TomlValue.parse? text with
  | some document => .ok (ofToml name document priority)
  | none => .error (.malformed name)

/-- The values of a TOML file, which is named by its path. -/
def readToml (files : String → Option String) (path : String) :
    Except ConfigError PropertySource :=
  match files path with
  | some text => parseToml path text
  | none => .error (.unreadable path)

end PropertySource

/-- Configuration sources in the order in which they are asked. -/
structure Environment where
  sources : List PropertySource := []

namespace Environment

/-- Puts a source behind those that are asked before it or have its priority. -/
def place (s : PropertySource) : List PropertySource → List PropertySource
  | [] => [s]
  | t :: rest => if t.priority < s.priority then s :: t :: rest else t :: place s rest

/-- Adds a source. -/
def add (e : Environment) (s : PropertySource) : Environment := ⟨place s e.sources⟩

/-- The value of a key: that of the first source that has one. -/
def get? (e : Environment) (key : String) : Option ConfigValue :=
  e.sources.findSome? fun s => s.get? key

/-- The value of a key as a text. -/
def text? (e : Environment) (key : String) : Option String := (e.get? key).bind ConfigValue.text?

/-- The value of a key as an integer. -/
def integer? (e : Environment) (key : String) : Option Int :=
  (e.get? key).bind ConfigValue.integer?

/-- The value of a key as a truth value. -/
def bool? (e : Environment) (key : String) : Option Bool := (e.get? key).bind ConfigValue.bool?

/-- The value of a key as a text, or another text. -/
def textOr (e : Environment) (key fallback : String) : String := (e.text? key).getD fallback

/-- The value of a key as an integer, or another integer. -/
def integerOr (e : Environment) (key : String) (fallback : Int) : Int :=
  (e.integer? key).getD fallback

/-- The value of a key as a truth value, or another truth value. -/
def boolOr (e : Environment) (key : String) (fallback : Bool) : Bool :=
  (e.bool? key).getD fallback

/-- The number of sources. -/
def size (e : Environment) : Nat := e.sources.length

end Environment

end Formwork
