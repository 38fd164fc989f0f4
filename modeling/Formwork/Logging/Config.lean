import Formwork.Text.Unicode.Case

/-!
# Logging configuration

`LogLevel` orders records by weight, `LogFormat` says how they are written, and `LoggingConfig` says
which ones are written and how.
-/

namespace Formwork

/-- The weight of a record, or how light a record may be to be written. -/
inductive LogLevel where
  | error
  | warn
  | info
  | debug
  | trace
  deriving DecidableEq

namespace LogLevel

/-- The levels from the heaviest to the lightest. -/
def all : List LogLevel := [error, warn, info, debug, trace]

/-- The number of a level: the lighter, the greater. -/
def rank : LogLevel → Nat
  | error => 1
  | warn => 2
  | info => 3
  | debug => 4
  | trace => 5

/-- The name of a level. -/
def name : LogLevel → String
  | error => "error"
  | warn => "warn"
  | info => "info"
  | debug => "debug"
  | trace => "trace"

/-- Reads the name of a level in any case. -/
def read? (text : String) : Option LogLevel :=
  let word := Text.toLower text
  if word == "warning" then some warn else all.find? (·.name == word)

/-- What is said of a text that names no level. -/
def complaint (text : String) : String := "Invalid log level: " ++ text

end LogLevel

/-- How records are written. -/
inductive LogFormat where
  | compact
  | full
  | json
  | pretty
  deriving DecidableEq

namespace LogFormat

/-- The formats. -/
def all : List LogFormat := [compact, full, json, pretty]

/-- The name of a format. -/
def name : LogFormat → String
  | compact => "compact"
  | full => "full"
  | json => "json"
  | pretty => "pretty"

/-- Reads the name of a format in any case. -/
def read? (text : String) : Option LogFormat :=
  all.find? (·.name == Text.toLower text)

/-- What is said of a text that names no format. -/
def complaint (text : String) : String := "Invalid log format: " ++ text

end LogFormat

/-- Which records are written, and how. -/
structure LoggingConfig where
  level : LogLevel := .info
  format : LogFormat := .compact
  showsTarget : Bool := false
  showsThreads : Bool := false
  /-- Directives that count instead of the level. -/
  filter : Option String := none

/-- The configuration that the variables of the environment ask for. What cannot be read leaves the
configuration as it is by default. -/
def LoggingConfig.ofVariables (getVar : String → Option String) : LoggingConfig :=
  let d : LoggingConfig := {}
  { d with
    filter := getVar "RUST_LOG"
    level := ((getVar "LOG_LEVEL").bind LogLevel.read?).getD d.level
    format := ((getVar "LOG_FORMAT").bind LogFormat.read?).getD d.format }

end Formwork
