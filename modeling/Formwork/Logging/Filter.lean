import Formwork.Logging.Config
import Formwork.Numeric.Integer
import Formwork.Text.Blank
import Formwork.Text.Unicode.Property

/-!
# Log filters

A filter is a list of directives between commas. A directive gives the least weight of the records
of a target and of all targets below it; without a target it counts for all others. Of the
directives for a target the one with the longest name counts.

* `LogFilter.parse?` reads a filter.
* `LogFilter.enables` says whether a record is written.
-/

namespace Formwork

/-- The greatest rank of the records of a target that are written. -/
structure LogDirective where
  target : Option String
  rank : Nat
  deriving DecidableEq

namespace LogDirective

/-- Reads a level as a number, as a word in any case, or as `off`. -/
def readRank? (text : List Char) : Option Nat :=
  let number := ((Numeric.readInteger .size text).filter (· ≤ 5)).map Int.toNat
  let word := text.map Char.toLower
  let named := (LogLevel.all.find? fun l => l.name.toList == word).map LogLevel.rank
  let off := if word = "off".toList then some 0 else none
  let empty := if word = [] then some LogLevel.error.rank else none
  number.or (named.or (off.or empty))

/-- Whether a directive may begin with a character. -/
def startsDirective (c : Char) : Bool :=
  c == '-' || c == ':' || c == '_' || Text.Unicode.isAlphabetic c ||
    Text.Unicode.Category.of c matches .decimalNumber | .letterNumber | .otherNumber

/-- Reads a directive: a level, a target, or a target with a level behind an equals sign. A target
without a level has all its records written. -/
def parse? (text : List Char) : Option LogDirective :=
  let shown := Text.trimChars text
  let name := shown.takeWhile (· != '=')
  if !(shown.head?.any startsDirective) || name.contains '[' then none
  else if name.length < shown.length then
    -- blanks in front of a directive do not shift where its target ends
    let target := some (String.ofList (text.take name.length))
    match text.drop (name.length + 1) with
    | [] => some ⟨target, LogLevel.trace.rank⟩
    | level => (readRank? level).map fun rank => ⟨target, rank⟩
  else
    match readRank? text with
    | some rank => some ⟨none, rank⟩
    | none => some ⟨some (String.ofList text), LogLevel.trace.rank⟩

/-- Whether a directive speaks of a target. -/
def covers (d : LogDirective) (target : String) : Bool :=
  d.target.all fun start => start.toList.isPrefixOf target.toList

/-- How much of a target a directive names. -/
def precision (d : LogDirective) : Nat := (d.target.map fun t => t.utf8ByteSize + 1).getD 0

end LogDirective

/-- Directives in the order in which they were written. -/
abbrev LogFilter := List LogDirective

namespace LogFilter

/-- The filter of a level. -/
def ofLevel (l : LogLevel) : LogFilter := [⟨none, l.rank⟩]

/-- Reads a filter, which may be without directives. -/
def parse? (text : String) : Option LogFilter :=
  ((text.toList.splitOn ',').filter fun part => !part.isEmpty).mapM LogDirective.parse?

/-- The filter, or one that lets errors pass if it has no directives. -/
def orErrors (f : LogFilter) : LogFilter := if f.isEmpty then ofLevel .error else f

/-- The directive that counts for a target: the most precise one, and of equals the last. -/
def directive? (f : LogFilter) (target : String) : Option LogDirective :=
  (f.filter (·.covers target)).foldl (fun best d =>
    match best with
    | none => some d
    | some b => if b.precision ≤ d.precision then some d else some b) none

/-- Whether records of a target and a level are written. -/
def enables (f : LogFilter) (target : String) (l : LogLevel) : Bool :=
  (f.directive? target).any fun d => decide (l.rank ≤ d.rank)

end LogFilter

/-- The filter of a configuration: its own, or else the one of the environment; a filter that cannot
be read gives way to the level. Without directives, its own filter lets errors pass, and that of the
environment nothing. -/
def LoggingConfig.activeFilter (c : LoggingConfig) (environment : Option String) : LogFilter :=
  let stated := match c.filter with
    | some text => (LogFilter.parse? text).map LogFilter.orErrors
    | none => environment.bind LogFilter.parse?
  stated.getD (.ofLevel c.level)

/-- What a process writes records by, once it is set up. -/
abbrev LogSink := Option LogFilter

/-- Sets up the logging of a process, which can be done once. -/
def LogSink.install? (s : LogSink) (c : LoggingConfig) (environment : Option String) :
    Option LogSink :=
  if s.isSome then none else some (some (c.activeFilter environment))

/-- Whether a process writes records of a target and a level. -/
def LogSink.enables (s : LogSink) (target : String) (l : LogLevel) : Bool :=
  Option.any (fun f => LogFilter.enables f target l) s

end Formwork
