/-!
# JSON values

The values that a snapshot of a bean and the body of an answer are made of. Whole numbers and
binary numbers are different values, as they are written differently.
-/

namespace Formwork

/-- A JSON value. -/
inductive Json where
  | null
  | bool (b : Bool)
  | integer (n : Int)
  | float (x : Float)
  | text (s : String)
  | list (items : List Json)
  | object (fields : List (String × Json))

namespace Json

instance : Inhabited Json := ⟨null⟩

/-- A list of texts. -/
def texts (l : List String) : Json := list (l.map text)

/-- A text, or null. -/
def ofText? (s : Option String) : Json := (s.map text).getD null

/-- A finite number, or null. -/
def ofFloat (x : Float) : Json := if x.isFinite then float x else null

mutual

/-- Whether two values are the same, whatever the order of the fields of their objects. -/
def same : Json → Json → Bool
  | null, null => true
  | bool a, bool b => a == b
  | integer a, integer b => a == b
  | float a, float b => a == b
  | text a, text b => a == b
  | list a, list b => sameItems a b
  | object a, object b => a.length == b.length && sameFields a b
  | _, _ => false

/-- Whether two lists hold the same values in the same order. -/
def sameItems : List Json → List Json → Bool
  | [], [] => true
  | a :: as, b :: bs => same a b && sameItems as bs
  | _, _ => false

/-- Whether each field is one of the others, too. -/
def sameFields : List (String × Json) → List (String × Json) → Bool
  | [], _ => true
  | (name, a) :: as, bs =>
    (match bs.lookup name with
      | some b => same a b
      | none => false) && sameFields as bs

end

end Json

end Formwork
