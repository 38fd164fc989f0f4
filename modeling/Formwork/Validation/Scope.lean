import Formwork.FieldName
import Formwork.Text.Blank

/-!
# Scopes

An `EventScope` says for which events a rule or a validator counts, a `RequiredScope` which fields
may be reported as missing.
-/

namespace Formwork

/-- The events that a rule counts for. -/
inductive EventScope where
  | all
  | only (events : List String)
  | except (events : List String)
  deriving DecidableEq

namespace EventScope

/-- The scope that a list of events writes: a name stands for an event, a name behind `!` excludes
one, and exclusions count only if no event is named. Blank entries are passed over. -/
def ofEvents (events : List String) : EventScope :=
  let names := events.map fun e => Text.trimChars e.toList
  let named := names.filter fun e => !e.isEmpty && e.head? != some '!'
  let excluded := (names.filter fun e => e.head? == some '!').map (·.drop 1)
  if !named.isEmpty then .only (named.map String.ofList)
  else if !excluded.isEmpty then .except (excluded.map String.ofList)
  else .all

/-- Whether the scope has an event. -/
def applies (s : EventScope) (event : String) : Bool :=
  match s with
  | .all => true
  | .only events => events.contains event
  | .except events => !events.contains event

end EventScope

/-- The fields that may be reported as missing although they were not submitted. -/
inductive RequiredScope where
  | all
  /-- The fields that a page lists. -/
  | manifest (fields : List String)
  deriving DecidableEq

namespace RequiredScope

/-- The scope of the parameters that a page lists. -/
def ofManifest (parameters : List String) : RequiredScope := .manifest (parameters.map fieldName)

/-- Whether a field may be reported as missing. -/
def requires (s : RequiredScope) (field : String) : Bool :=
  match s with
  | .all => true
  | .manifest fields => fields.contains field

end RequiredScope

end Formwork
