import Formwork.Numeric.Integer
import Formwork.Text.Blank

/-!
# Message templates

A template holds places such as `{0}` for parameters. The text that a parameter puts in a place is
not searched for places again.
-/

namespace Formwork

/-- The index between two braces. -/
def placeIndex? (text : List Char) : Option Nat :=
  (Numeric.readInteger .size (Text.trimChars text)).map Int.toNat

/-- Puts the parameters in their places, from left to right. A brace that opens no place stands for
itself, and the search goes on right behind it. -/
def fillPlaces (parameters : List String) : List Char → List Char
  | [] => []
  | c :: rest =>
    if c = '\x7b' then
      match rest.dropWhile (· != '\x7d'),
          (placeIndex? (rest.takeWhile (· != '\x7d'))).bind (parameters[·]?) with
      | _ :: _, some p => p.toList ++ fillPlaces parameters ((rest.dropWhile (· != '\x7d')).drop 1)
      | _, _ => c :: fillPlaces parameters rest
    else c :: fillPlaces parameters rest
termination_by text => text.length
decreasing_by
  all_goals simp_wf
  have h : (rest.dropWhile (· != '\x7d')).length ≤ rest.length :=
    (List.dropWhile_sublist _).length_le
  omega

/-- The text of a template with its parameters. -/
def formatTemplate (template : String) (parameters : List String) : String :=
  String.ofList (fillPlaces parameters template.toList)

end Formwork
