import Formwork.Locale.Basic
import Formwork.NameMap

/-!
# Requests

A request has a path, parameters with any number of values, and maybe an event and a locale.
-/

namespace Formwork

/-- A request for an action. -/
structure Request where
  path : String
  parameters : NameMap (List String) := .empty
  event : Option String := none
  locale : Option Locale := none

namespace Request

/-- Appends values to a parameter. -/
def addValues (r : Request) (name : String) (values : List String) : Request :=
  { r with parameters := r.parameters.upsert name fun old => old.getD [] ++ values }

/-- A request with parameters from pairs in order. -/
def ofPairs (path : String) (pairs : List (String × List String)) : Request :=
  pairs.foldl (fun r p => r.addValues p.1 p.2) { path }

/-- The first value of a parameter. -/
def first? (r : Request) (name : String) : Option String :=
  (r.parameters.get? name).bind List.head?

/-- The parameters with values captured from the path, where the request does not give them. -/
def withCaptured (r : Request) (captured : List (String × String)) : NameMap (List String) :=
  captured.foldl (fun m c => m.upsert c.1 fun old => old.getD [c.2]) r.parameters

end Request

end Formwork
