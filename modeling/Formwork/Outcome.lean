import Formwork.FieldError
import Formwork.Text.Percent

/-!
# Outcomes

What an event leads to: another page or address with parameters, a stream, or the page that the
request came from, with the errors and the submitted values.
-/

namespace Formwork

/-- The target of a forward or a redirect. -/
structure Onward where
  path : String
  /-- Parameters in the order of their first use, with all their values. -/
  parameters : List (String × List String) := []
  anchor : Option String := none
  deriving DecidableEq

namespace Onward

/-- The values of a parameter, where a parameter without values has an empty one. -/
def shownValues (values : List String) : List String := if values.isEmpty then [""] else values

/-- Appends values to a parameter. -/
def addValues (name : String) (values : List String) :
    List (String × List String) → List (String × List String)
  | [] => [(name, values)]
  | (n, old) :: rest =>
    if n = name then (n, old ++ values) :: rest else (n, old) :: addValues name values rest

/-- Adds a parameter. -/
def addParameter (o : Onward) (name : String) (values : List String) : Onward :=
  { o with parameters := addValues name (shownValues values) o.parameters }

/-- The pairs of the parameters in order. -/
def pairs (o : Onward) : List (String × String) :=
  o.parameters.flatMap fun p => p.2.map fun v => (p.1, v)

/-- A pair as it stands in a query. -/
def pairText (p : String × String) : String :=
  Text.encodeComponent p.1 ++ "=" ++ Text.encodeComponent p.2

/-- The address with its parameters behind a question mark, or behind an ampersand if the path has
a question mark, and with its anchor. -/
def url (o : Onward) : String :=
  let query := String.intercalate "&" (o.pairs.map pairText)
  let separator := if o.path.toList.contains '?' then "&" else "?"
  o.path ++ (if o.pairs.isEmpty then "" else separator ++ query) ++
    (o.anchor.map ("#" ++ ·)).getD ""

end Onward

/-- Content that is sent as it is. -/
structure StreamContent where
  contentType : String
  /-- The name under which the content is to be saved. -/
  filename : Option String := none
  body : String
  deriving DecidableEq

/-- The page that the request came from, once more. -/
structure Redisplay where
  sourcePage : Option String
  errors : FieldErrors
  values : NameMap (List String)
  deriving DecidableEq

/-- What an event leads to. -/
inductive Outcome where
  | forward (o : Onward)
  | redirect (o : Onward)
  | stream (s : StreamContent)
  | redisplay (r : Redisplay)
  deriving DecidableEq

namespace Outcome

instance : Inhabited Outcome := ⟨forward ⟨"", [], none⟩⟩

/-- Forwards to a path. -/
def toPath (path : String) : Outcome := forward { path }

/-- Changes the target of a forward or a redirect. -/
def mapOnward (f : Onward → Onward) : Outcome → Outcome
  | forward o => forward (f o)
  | redirect o => redirect (f o)
  | other => other

/-- Adds a parameter to a forward or a redirect. -/
def addParameter (o : Outcome) (name : String) (values : List String) : Outcome :=
  o.mapOnward (·.addParameter name values)

/-- Adds parameters one after the other. -/
def addParameters (o : Outcome) (parameters : List (String × List String)) : Outcome :=
  parameters.foldl (fun o p => o.addParameter p.1 p.2) o

/-- Sets the anchor of a forward or a redirect. -/
def setAnchor (o : Outcome) (anchor : String) : Outcome :=
  o.mapOnward fun t => { t with anchor := some anchor }

/-- Sets the name under which a stream is to be saved. -/
def setFilename (o : Outcome) (filename : String) : Outcome :=
  match o with
  | stream s => stream { s with filename := some filename }
  | other => other

/-- The address of a forward or a redirect. -/
def url? : Outcome → Option String
  | forward o | redirect o => some o.url
  | stream _ | redisplay _ => none

/-- The name of the kind of outcome. -/
def kind : Outcome → String
  | forward _ => "forward"
  | redirect _ => "redirect"
  | stream _ => "stream"
  | redisplay _ => "redisplay"

end Outcome

end Formwork
