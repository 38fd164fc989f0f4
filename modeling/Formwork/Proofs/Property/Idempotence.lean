import Formwork.Proofs.Property.Elements
import Formwork.Proofs.Sample.Catalogue

/-!
# Binding twice

A submission that is sent again finds what the first one left. Its steps lead to the same slots,
and the value at the end has the type that it had, which is all that an assignment depends on.

- **Types** (`schema_assigned`): an assignment keeps the type of a value, so that it comes to the
  same when it is made again (`assigned_assigned`).
- **Paths** (`descend_descend`): a change that is the same when it is made again is so at the end of
  a path as well, also where the path leads nowhere.
- **Binding** (`bind_bind`): the second time, binding a path changes nothing and answers the same.
-/

namespace Formwork

variable {cx : BindContext} {s : Schema} {values : List String} {v w : Value}

/-! ## Types -/

/-- A property is assigned a value of its type. -/
theorem BindContext.schema_of_assignment (hc : cx.Sound)
    (h : cx.assignment s values = .ok (.replaced w)) : w.schema = s := by
  induction s generalizing values w with
  | scalar t =>
    simp only [assignment, assignScalar] at h
    split at h
    · cases h
    · split at h
      · cases h
      · next hconvert =>
        cases h
        exact congrArg Schema.scalar (ConverterRegistry.type_of_convert hconvert)
      · cases h
      · cases h
  | option inner ih =>
    simp only [assignment] at h
    split at h
    · cases h
      rfl
    · cases hf : cx.initial? inner with
      | none =>
        rw [hf] at h
        cases h
      | some fresh =>
        simp only [hf] at h
        obtain ⟨a, ha, he⟩ := map_eq_ok.mp h
        cases a with
        | unchanged =>
          cases he
          exact congrArg Schema.option (schema_of_initial? hc hf)
        | replaced x =>
          cases he
          exact congrArg Schema.option (ih ha)
        | failed l => cases he
  | box inner ih =>
    obtain ⟨a, ha, he⟩ := map_eq_ok.mp h
    cases a with
    | replaced x =>
      cases he
      exact congrArg Schema.box (ih ha)
    | unchanged | failed l => cases he
  | sequence element ih =>
    simp only [assignment] at h
    split at h
    · cases h
      rfl
    · cases h
    · obtain ⟨parts, -, he⟩ := map_eq_ok.mp h
      unfold assignedItems at he
      dsimp only at he
      split at he
      · cases he
        rfl
      · cases he
  | map | bean => cases h

namespace Value

theorem schema_apply (hc : cx.Sound) {a : Assignment}
    (h : cx.assignment v.schema values = .ok a) : (a.apply v).schema = v.schema := by
  cases a with
  | unchanged | failed l => rfl
  | replaced w => exact BindContext.schema_of_assignment hc h

/-- An assignment keeps the type, whatever comes of it. -/
theorem schema_assigned (hc : cx.Sound) (values : List String) (v : Value) :
    (v.assigned cx values).1.schema = v.schema := by
  unfold assigned assign
  cases ha : cx.assignment v.schema values with
  | error e => rfl
  | ok a => exact schema_apply hc ha

/-- An assignment that is made again finds a value of the same type, and comes to the same. -/
theorem assigned_assigned (hc : cx.Sound) (values : List String) (v : Value) :
    (v.assigned cx values).1.assigned cx values = v.assigned cx values := by
  have hschema := schema_assigned hc values v
  unfold assigned assign at hschema ⊢
  cases ha : cx.assignment v.schema values with
  | error e =>
    simp only [Except.map, ha]
  | ok a =>
    simp only [ha, Except.map] at hschema ⊢
    rw [hschema, ha]
    cases a <;> rfl

/-! ## Paths -/

/-- What a change at the end of a path does not do again, it does not do again along the path: the
options in front of a step are filled, and the child that the first change left stands in the slot
that the step leads to. -/
theorem descend_descend {α : Type} (hc : cx.Sound)
    {change : Value → Value × Except PropertyError α}
    (hchange : ∀ v : Value, change (change v).1 = change v) (path : List Segment) (v : Value) :
    descend cx change path (descend cx change path v).1 = descend cx change path v := by
  induction path generalizing v with
  | nil => exact hchange v
  | cons segment rest ih =>
    cases hl : (v.filled cx).locate cx segment with
    | error e =>
      have hagain : ((v.filled cx).filled cx).locate cx segment = .error e := by
        rw [filled_filled hc, hl]
      rw [descend_of_error hl, descend_of_error hagain, filled_filled hc]
    | ok found =>
      obtain ⟨k, child⟩ := found
      have hsome := isSome_content?_of_locate hl
      have hfilled := filled_store hl (descend cx change rest child).1
      have hagain : (((v.filled cx).store cx k (descend cx change rest child).1).filled cx).locate
          cx segment = .ok (k, (descend cx change rest child).1) := by
        rw [hfilled, locate_store hsome, hl, Except.map, if_pos rfl]
      rw [descend_of_ok hl, descend_of_ok hagain, hfilled, store_store hsome, ih child]

/-- **Binding twice.** When a path is bound again with the same values, the answer is the one of the
first time, be it a success, failures or a refusal, and nothing changes any more. -/
theorem bind_bind (hc : cx.Sound) (values : List String) (path : List Segment) (v : Value) :
    (v.bind cx values path).1.bind cx values path = v.bind cx values path :=
  descend_descend hc (assigned_assigned hc values) path v

/-- A colour is submitted to a new order twice. The positions that the path asks for are made the
first time, and are there the second time. -/
theorem bind_bind_order :
    let cx := Sample.bindContext Sample.converters .us
    let path := [.property "items", .index "1", .property "colour"]
    ∃ order w e, Sample.catalogue.fresh? "Order" = some order ∧
      order.bind cx ["red"] path = (w, .error e) ∧ w ≠ order ∧
      w.bind cx ["red"] path = (w, .error e) := by
  intro cx path
  obtain ⟨order, w, e, horder, hbind, hnone, hsome⟩ : ∃ order w e,
      Sample.catalogue.fresh? "Order" = some order ∧
      order.bind cx ["red"] path = (w, .error e) ∧
      order.resolve [.property "items", .index "0"] = none ∧
      (w.resolve [.property "items", .index "0"]).isSome := ⟨_, _, _, rfl, rfl, rfl, rfl⟩
  have hagain := bind_bind (Sample.sound_bindContext Sample.converters .us) ["red"] path order
  refine ⟨order, w, e, horder, hbind, ?_, ?_⟩
  · rintro rfl
    rw [hnone] at hsome
    cases hsome
  · show w.bind cx ["red"] path = _
    rw [hbind] at hagain
    exact hagain

end Value

end Formwork
