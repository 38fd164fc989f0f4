import Formwork.Proofs.FieldError
import Formwork.Validation.Custom

/-!
# The errors that are left

- **No errors**: a collection is empty iff nothing was added to it, one by one
  (`isEmpty_addAll_iff`) or from another collection (`isEmpty_merge_iff`). Validators that take no
  errors away leave a collection empty only if it was (`isEmpty_of_runAll`).
- **All errors** (`under_runAll`): validators that only add errors append theirs to those of each
  field, one validator after the other.
-/

namespace Formwork

namespace FieldErrors

variable {es other : FieldErrors}

theorem isEmpty_iff :
    es.isEmpty = true ↔ ∀ field l, es.byField.get? field = some l → l = [] := by
  unfold isEmpty NameMap.values
  rw [List.all_eq_true]
  constructor
  · intro h field l hl
    exact List.isEmpty_iff.mp
      (h l (List.mem_map.mpr ⟨(field, l), NameMap.mem_entries_iff.mpr hl, rfl⟩))
  · intro h l hl
    obtain ⟨⟨field, l⟩, hm, rfl⟩ := List.mem_map.mp hl
    exact List.isEmpty_iff.mpr (h field l (NameMap.mem_entries_iff.mp hm))

theorem under_eq_nil_of_isEmpty (h : es.isEmpty = true) (field : String) : es.under field = [] := by
  unfold under get?
  cases hl : es.byField.get? field with
  | none => rfl
  | some l => exact isEmpty_iff.mp h field l hl

theorem isEmpty_append_iff {field : String} {more : List FieldError} :
    (es.append field more).isEmpty = true ↔ es.isEmpty = true ∧ more = [] := by
  rw [isEmpty_iff, isEmpty_iff]
  simp only [append, NameMap.get?_upsert]
  constructor
  · intro h
    have hown := h field _ (if_pos rfl)
    obtain ⟨hold, hmore⟩ := List.append_eq_nil_iff.mp hown
    refine ⟨fun f l hl => ?_, hmore⟩
    by_cases hf : field = f
    · rw [← hf] at hl
      rwa [hl] at hold
    · exact h f l (by rw [if_neg hf]; exact hl)
  · rintro ⟨h, rfl⟩ f l hl
    split at hl
    · cases hold : es.byField.get? field with
      | none =>
        rw [hold] at hl
        cases hl
        rfl
      | some old =>
        rw [hold] at hl
        cases hl
        simp [h field old hold]
    · exact h f l hl

theorem isEmpty_addAll_iff {errors : List (String × FieldError)} :
    (es.addAll errors).isEmpty = true ↔ es.isEmpty = true ∧ errors = [] := by
  induction errors generalizing es with
  | nil => simp [addAll]
  | cons e rest ih =>
    refine iff_of_false (fun h => ?_) (by simp)
    obtain ⟨hadd, -⟩ := ih.mp h
    cases (isEmpty_append_iff.mp hadd).2

theorem isEmpty_merge_iff :
    (es.merge other).isEmpty = true ↔ es.isEmpty = true ∧ other.isEmpty = true := by
  have hfold : ∀ (entries : List (String × List FieldError)) (es : FieldErrors),
      (entries.foldl (fun es e => es.append e.1 e.2) es).isEmpty = true ↔
        es.isEmpty = true ∧ ∀ e ∈ entries, e.2 = [] := by
    intro entries
    induction entries with
    | nil => simp
    | cons e rest ih =>
      intro es
      rw [List.foldl_cons, ih, isEmpty_append_iff, and_assoc, List.forall_mem_cons]
  unfold merge
  rw [hfold]
  refine and_congr_right fun _ => ?_
  rw [isEmpty, NameMap.values, List.all_map, List.all_eq_true]
  simp

end FieldErrors

namespace CustomValidator

variable {β : Type}

/-- The first validator runs, and the others meet the errors that it leaves. -/
theorem runAll_cons_of_runs {v : CustomValidator β} {rest : List (CustomValidator β)} {bean : β}
    {event : String} {errors : FieldErrors} (h : v.runs event errors = true) :
    runAll (v :: rest) bean event errors = runAll rest bean event (v.check bean errors) := by
  simp only [runAll, List.foldl_cons, h, ↓reduceIte]

theorem runAll_cons_of_not_runs {v : CustomValidator β} {rest : List (CustomValidator β)} {bean : β}
    {event : String} {errors : FieldErrors} (h : ¬ v.runs event errors = true) :
    runAll (v :: rest) bean event errors = runAll rest bean event errors := by
  simp only [runAll, List.foldl_cons, h, Bool.false_eq_true, ↓reduceIte]

/-- A validator that takes no errors away. -/
def KeepsErrors (v : CustomValidator β) : Prop :=
  ∀ bean errors, errors.isEmpty = false → (v.check bean errors).isEmpty = false

theorem isEmpty_of_runAll {validators : List (CustomValidator β)}
    (hk : ∀ v ∈ validators, v.KeepsErrors) {bean : β} {event : String} {errors : FieldErrors}
    (h : (runAll validators bean event errors).isEmpty = true) : errors.isEmpty = true := by
  induction validators generalizing errors with
  | nil => exact h
  | cons v rest ih =>
    obtain ⟨hv, hrest⟩ := List.forall_mem_cons.mp hk
    by_cases hr : v.runs event errors = true
    · rw [runAll_cons_of_runs hr] at h
      have hnext := ih hrest h
      cases he : errors.isEmpty with
      | true => rfl
      | false =>
        rw [hv bean errors he] at hnext
        cases hnext
    · rw [runAll_cons_of_not_runs hr] at h
      exact ih hrest h

/-- A validator that appends errors to those of their fields and does nothing else to them. -/
def OnlyAdds (v : CustomValidator β) : Prop :=
  ∀ bean errors field, errors.under field <+: (v.check bean errors).under field

/-- The errors of a field that a validator adds. -/
def added (v : CustomValidator β) (bean : β) (errors : FieldErrors) (field : String) :
    List FieldError := ((v.check bean errors).under field).drop (errors.under field).length

/-- The validators that run, in their order, each with the errors that it meets. -/
def met (bean : β) (event : String) :
    List (CustomValidator β) → FieldErrors → List (CustomValidator β × FieldErrors)
  | [], _ => []
  | v :: rest, errors =>
    if v.runs event errors then (v, errors) :: met bean event rest (v.check bean errors)
    else met bean event rest errors

theorem OnlyAdds.under_check {v : CustomValidator β} (h : v.OnlyAdds) (bean : β)
    (errors : FieldErrors) (field : String) :
    (v.check bean errors).under field = errors.under field ++ v.added bean errors field := by
  obtain ⟨more, hmore⟩ := h bean errors field
  rw [added, ← hmore, List.drop_left]

/-- The errors of a field after all validators are those before them, and what each of them adds. -/
theorem under_runAll {validators : List (CustomValidator β)} (h : ∀ v ∈ validators, v.OnlyAdds)
    (bean : β) (event : String) (errors : FieldErrors) (field : String) :
    (runAll validators bean event errors).under field = errors.under field ++
      (met bean event validators errors).flatMap fun m => m.1.added bean m.2 field := by
  induction validators generalizing errors with
  | nil => exact (List.append_nil _).symm
  | cons v rest ih =>
    obtain ⟨hv, hrest⟩ := List.forall_mem_cons.mp h
    unfold met
    by_cases hr : v.runs event errors = true
    · rw [runAll_cons_of_runs hr, ih hrest, hv.under_check, if_pos hr, List.flatMap_cons,
        List.append_assoc]
    · rw [runAll_cons_of_not_runs hr, ih hrest, if_neg hr]

end CustomValidator

end Formwork
