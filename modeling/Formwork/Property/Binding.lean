import Formwork.Property.Assign

/-!
# Binding a path

* `Value.resolve` reads the value at the end of a path.
* `Value.descend` goes to the end of a path, creates what is missing on the way, and changes the
  value there.
* `Value.bind` assigns submitted values at the end of a path.
-/

namespace Formwork.Value

/-- The value at the end of a path, if everything on the way is there. -/
def resolve : List Segment → Value → Option Value
  | [], v => some v
  | segment :: rest, v => (v.child? segment).bind (resolve rest)

/-- Changes the value at the end of a path. What was created on the way stays, also if a later step
fails. -/
def descend {α : Type} (cx : BindContext) (change : Value → Value × Except PropertyError α) :
    List Segment → Value → Value × Except PropertyError α
  | [], v => change v
  | segment :: rest, v =>
    let v := v.filled cx
    match v.select cx segment with
    | .error e => (v, .error e)
    | .ok s =>
      let (child, result) := descend cx change rest s.child
      (s.put child, result)

/-- Assigns submitted values, or leaves the value as it is. -/
def assigned (cx : BindContext) (values : List String) (v : Value) :
    Value × Except PropertyError (List ConversionFailure) :=
  match v.assign cx values with
  | .ok (w, failures) => (w, .ok failures)
  | .error e => (v, .error e)

/-- Binds submitted values at the end of a path. -/
def bind (cx : BindContext) (values : List String) (path : List Segment) (v : Value) :
    Value × Except PropertyError (List ConversionFailure) :=
  descend cx (assigned cx values) path v

end Formwork.Value
