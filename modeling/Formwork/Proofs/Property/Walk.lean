import Formwork.Proofs.Path.FieldName
import Formwork.Proofs.Property.Binding

/-!
# The names that a path walks

The properties of beans on the way of a path (`Value.walked`) are its names only if names choose
properties and keys in brackets choose elements and entries (`Value.Regular`): a bean also takes a
key for a property, and a map a name for a key. A path that is regular, tidy and without keys that
hide more than themselves has the chain of the walked properties as its field
(`fieldName_eq_walked`).
-/

namespace Formwork

namespace Value

variable {cx : BindContext}

/-- Whether a step into a value chooses a property of a bean. -/
def isBean : Value → Bool
  | present v | boxed v => v.isBean
  | bean _ _ => true
  | scalar _ | absent _ | sequence _ _ | map _ _ _ => false

/-- The properties of beans on the way of a path, without elements of sequences and entries of
maps. -/
def walked (cx : BindContext) : List Segment → Value → List String
  | [], _ => []
  | segment :: rest, v =>
    match (v.filled cx).select cx segment with
    | .error _ => []
    | .ok s => (if (v.filled cx).isBean then [segment.key] else []) ++ walked cx rest s.child

/-- On the way of a path, names choose properties of beans, and keys in brackets choose elements
and entries. -/
def Regular (cx : BindContext) : List Segment → Value → Prop
  | [], _ => True
  | segment :: rest, v => ((v.filled cx).isBean = segment.name?.isSome) ∧
      ∀ s, (v.filled cx).select cx segment = .ok s → Regular cx rest s.child

theorem walked_of_regular {path : List Segment} {v leaf : Value} (h : reach cx path v = .ok leaf)
    (hr : Regular cx path v) : walked cx path v = path.filterMap Segment.name? := by
  induction path generalizing v with
  | nil => rfl
  | cons segment rest ih =>
    obtain ⟨hbean, hrest⟩ := hr
    simp only [reach] at h
    cases hs : (v.filled cx).select cx segment with
    | error e =>
      rw [hs] at h
      cases h
    | ok s =>
      simp only [hs] at h
      simp only [walked, hs, ih h (hrest s hs), hbean, List.filterMap_cons]
      cases segment <;> rfl

end Value

/-- The field of a regular path in a tidy spelling is the chain of the properties on its way. -/
theorem fieldName_eq_walked {cx : BindContext} {w : Spelling} (hc : w.SelfContained)
    (ht : w.Tidy) {v leaf : Value} (h : v.reach cx w.segments = .ok leaf)
    (hr : v.Regular cx w.segments) :
    fieldName (String.ofList w.text) = String.intercalate "." (v.walked cx w.segments) := by
  rw [Value.walked_of_regular h hr]
  exact (Spelling.fieldName_text_eq_dotted_iff hc (p := ⟨"", w.segments⟩) rfl).mpr ht

end Formwork
