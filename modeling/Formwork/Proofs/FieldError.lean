import Formwork.FieldError
import Formwork.Proofs.NameMap

/-!
# The errors of a field

`FieldErrors.under` is the list of the errors of a field, empty if there are none. Adding errors
(`under_addAll`) and merging collections (`under_merge`) append to the list of each field and take
nothing away. A collection of added errors is known by its lists (`addAll_empty_congr`).
-/

namespace Formwork

/-- An error that names a field keeps it. -/
theorem FieldError.inField_eq_self {e : FieldError} {field : String} (h : e.field = some field)
    (other : String) : e.inField other = e := by
  obtain ⟨source, kind, parameters, named, value⟩ := e
  obtain rfl : named = some field := h
  rfl

namespace FieldErrors

variable {es other : FieldErrors} {field : String}

/-- The errors of a field, in the order in which they came in. -/
def under (es : FieldErrors) (field : String) : List FieldError := (es.get? field).getD []

theorem under_append (es : FieldErrors) (field : String) (more : List FieldError)
    (name : String) :
    (es.append field more).under name = es.under name ++ if field = name then more else [] := by
  unfold under get? append
  rw [NameMap.get?_upsert]
  split
  · next h =>
    rw [h]
    rfl
  · rw [List.append_nil]

theorem under_foldl_append (entries : List (String × List FieldError)) :
    (entries.foldl (fun es e => es.append e.1 e.2) es).under field =
      es.under field ++ (entries.filter (·.1 == field)).flatMap (·.2) := by
  induction entries generalizing es with
  | nil => simp
  | cons e rest ih =>
    rw [List.foldl_cons, ih, under_append, List.filter_cons, List.append_assoc]
    by_cases h : e.1 = field
    · rw [if_pos h, if_pos (beq_iff_eq.mpr h), List.flatMap_cons]
    · rw [if_neg h, if_neg (mt beq_iff_eq.mp h), List.nil_append]

theorem under_merge : (es.merge other).under field = es.under field ++ other.under field := by
  unfold merge
  rw [under_foldl_append, NameMap.flatMap_filter_entries]
  rfl

/-- Errors come in behind those that are there, and take the name of the field if they have none. -/
theorem under_addAll (es : FieldErrors) (errors : List (String × FieldError)) (field : String) :
    (es.addAll errors).under field =
      es.under field ++ (errors.filter (·.1 == field)).map fun e => e.2.inField e.1 := by
  have hfold : es.addAll errors =
      (errors.map fun e => (e.1, [e.2.inField e.1])).foldl (fun es e => es.append e.1 e.2) es := by
    rw [List.foldl_map]
    rfl
  rw [hfold, under_foldl_append, List.filter_map, List.flatMap_map, List.map_eq_flatMap]
  rfl

theorem mem_fields_append_iff {more : List FieldError} {name : String} :
    name ∈ (es.append field more).fields ↔ name ∈ es.fields ∨ field = name := by
  unfold fields append
  rw [NameMap.mem_names_iff, NameMap.mem_names_iff, NameMap.get?_upsert]
  split
  · next h => simp [h]
  · next h => simp [h]

theorem mem_fields_addAll_iff {errors : List (String × FieldError)} :
    field ∈ (es.addAll errors).fields ↔ field ∈ es.fields ∨ ∃ e ∈ errors, e.1 = field := by
  induction errors generalizing es with
  | nil => simp [addAll]
  | cons e rest ih =>
    show field ∈ ((es.add e.1 e.2).addAll rest).fields ↔ _
    simp only [ih, add, mem_fields_append_iff, List.mem_cons, exists_eq_or_imp, or_assoc]

theorem get?_addAll_empty (errors : List (String × FieldError)) (field : String) :
    (empty.addAll errors).get? field =
      if errors.filter (·.1 == field) = [] then none
      else some ((errors.filter (·.1 == field)).map fun e => e.2.inField e.1) := by
  have hunder := under_addAll empty errors field
  have hfields : ((empty.addAll errors).get? field).isSome = true ↔
      errors.filter (·.1 == field) ≠ [] := by
    have hempty : field ∉ empty.fields := List.not_mem_nil
    rw [get?, ← NameMap.mem_names_iff]
    refine mem_fields_addAll_iff.trans ?_
    simp [hempty, List.filter_eq_nil_iff]
  split
  · next hnil => simpa [hnil] using hfields
  · next hne =>
    obtain ⟨l, hl⟩ := Option.isSome_iff_exists.mp (hfields.mpr hne)
    rw [under, hl] at hunder
    rw [hl]
    exact congrArg some hunder

/-- Collected errors are the same if they are for every name. -/
theorem addAll_empty_congr {errors others : List (String × FieldError)}
    (h : ∀ name, errors.filter (·.1 == name) = others.filter (·.1 == name)) :
    empty.addAll errors = empty.addAll others := by
  have hmap : (empty.addAll errors).byField = (empty.addAll others).byField := by
    refine NameMap.ext_get? fun name => ?_
    show (empty.addAll errors).get? name = (empty.addAll others).get? name
    rw [get?_addAll_empty, get?_addAll_empty, h name]
  exact congrArg FieldErrors.mk hmap

end FieldErrors

end Formwork
