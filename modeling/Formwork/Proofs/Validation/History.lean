import Mathlib.Algebra.Order.Ring.Nat
import Formwork.Proofs.Validation.Errors

/-!
# Collections of errors as their history

- **Views**: a collection is known by its fields and by the errors of each (`ext_under`); both are
  known after a change, for all fields at once (`under_append`, `mem_fields_append_iff`), and so is
  the number of errors (`size_append`, `size_merge`).
- **Merging** (`merge_assoc`, `empty_merge`, `merge_empty`): collections are a monoid.
- **History** (`ErrorHistory`): a collection that was built by adding and merging holds what was
  added, in that order for each field (`under_collected`), and has no field without errors
  (`mem_fields_collected_iff`). `collected_canonical` puts this together.
-/

namespace Formwork

namespace FieldErrors

variable {es other : FieldErrors} {field : String}

/-! ## Views -/

theorem get?_eq_ite (es : FieldErrors) (field : String) :
    es.get? field = if field ∈ es.fields then some (es.under field) else none := by
  unfold fields under get?
  simp only [NameMap.mem_names_iff]
  cases es.byField.get? field with
  | none => rfl
  | some l => rfl

/-- Collections with the same fields, and with the same errors of each, are the same. -/
theorem ext_under (hf : ∀ field, field ∈ es.fields ↔ field ∈ other.fields)
    (hu : ∀ field, es.under field = other.under field) : es = other := by
  have hmap : es.byField = other.byField := by
    refine NameMap.ext_get? fun field => ?_
    show es.get? field = other.get? field
    rw [get?_eq_ite, get?_eq_ite, hu field]
    simp only [hf field]
  exact congrArg FieldErrors.mk hmap

theorem fields_pairwise (es : FieldErrors) : es.fields.Pairwise (· < ·) :=
  List.pairwise_map.mpr es.byField.ascending

theorem size_eq_sum (es : FieldErrors) :
    es.size = (es.byField.entries.map fun e => e.2.length).sum := by
  unfold size NameMap.values
  rw [List.map_map]
  rfl

theorem size_append (es : FieldErrors) (field : String) (more : List FieldError) :
    (es.append field more).size = es.size + more.length := by
  rw [size_eq_sum, size_eq_sum]
  show ((NameMap.place field _ es.byField.entries).map _).sum = _
  induction es.byField.entries with
  | nil => simp [NameMap.place]
  | cons e rest ih =>
    obtain ⟨name, l⟩ := e
    unfold NameMap.place
    split
    · simp; omega
    · split
      · simp; omega
      · rw [List.map_cons, List.sum_cons, List.map_cons, List.sum_cons, ih]
        omega

theorem isEmpty_iff_size : es.isEmpty = true ↔ es.size = 0 := by
  rw [size_eq_sum, List.sum_eq_zero_iff_forall_eq_nat, List.forall_mem_map, isEmpty,
    NameMap.values, List.all_map, List.all_eq_true]
  simp

/-! ## Merging -/

theorem mem_fields_merge_iff :
    field ∈ (es.merge other).fields ↔ field ∈ es.fields ∨ field ∈ other.fields := by
  have hfold : ∀ (entries : List (String × List FieldError)) (es : FieldErrors),
      field ∈ (entries.foldl (fun es e => es.append e.1 e.2) es).fields ↔
        field ∈ es.fields ∨ field ∈ entries.map (·.1) := by
    intro entries
    induction entries with
    | nil => simp
    | cons e rest ih =>
      intro es
      rw [List.foldl_cons, ih, mem_fields_append_iff, List.map_cons, List.mem_cons, or_assoc,
        @eq_comm _ e.1]
  exact hfold _ _

theorem size_merge (es other : FieldErrors) : (es.merge other).size = es.size + other.size := by
  have hfold : ∀ (entries : List (String × List FieldError)) (es : FieldErrors),
      (entries.foldl (fun es e => es.append e.1 e.2) es).size =
        es.size + (entries.map fun e => e.2.length).sum := by
    intro entries
    induction entries with
    | nil => simp
    | cons e rest ih =>
      intro es
      rw [List.foldl_cons, ih, size_append, List.map_cons, List.sum_cons, Nat.add_assoc]
  rw [size_eq_sum other]
  exact hfold _ _

theorem merge_assoc (es other more : FieldErrors) :
    (es.merge other).merge more = es.merge (other.merge more) := by
  refine ext_under (fun field => ?_) fun field => ?_
  · simp only [mem_fields_merge_iff, or_assoc]
  · simp only [under_merge, List.append_assoc]

theorem merge_empty (es : FieldErrors) : es.merge empty = es := rfl

theorem empty_merge (es : FieldErrors) : empty.merge es = es := by
  refine ext_under (fun field => ?_) fun field => ?_
  · rw [mem_fields_merge_iff]
    exact or_iff_right List.not_mem_nil
  · rw [under_merge]
    rfl

end FieldErrors

/-! ## History -/

/-- An error as it was handed in. -/
inductive AddedError where
  | toField (field : String) (e : FieldError)
  | toPage (e : FieldError)

namespace AddedError

/-- The collection with the error added. -/
def addTo (es : FieldErrors) : AddedError → FieldErrors
  | toField field e => es.add field e
  | toPage e => es.addGlobal e

/-- The field under which the error is kept. -/
def field : AddedError → String
  | toField field _ => field
  | toPage _ => FieldErrors.pageField

/-- The error as it is kept. -/
def kept : AddedError → FieldError
  | toField field e => e.inField field
  | toPage e => e

theorem addTo_eq_append (es : FieldErrors) (a : AddedError) :
    a.addTo es = es.append a.field [a.kept] := by
  cases a <;> rfl

end AddedError

/-- How a collection was built from nothing. -/
inductive ErrorHistory where
  | start
  | add (before : ErrorHistory) (a : AddedError)
  /-- Another collection, which was built the same way, is merged. -/
  | merge (before other : ErrorHistory)

namespace ErrorHistory

/-- The collection that was built. -/
def collected : ErrorHistory → FieldErrors
  | start => .empty
  | add before a => a.addTo before.collected
  | merge before other => before.collected.merge other.collected

/-- All errors that were handed in, from the first to the last; those of a merged collection count
from the merging on. -/
def added : ErrorHistory → List AddedError
  | start => []
  | add before a => before.added ++ [a]
  | merge before other => before.added ++ other.added

variable {h : ErrorHistory} {field : String}

/-- The errors of a field are those that were handed in for it, in that order. -/
theorem under_collected (h : ErrorHistory) (field : String) :
    h.collected.under field = (h.added.filter (·.field == field)).map AddedError.kept := by
  induction h with
  | start => rfl
  | add before a ih =>
    rw [collected, a.addTo_eq_append, FieldErrors.under_append, ih, added, List.filter_append,
      List.map_append]
    by_cases hfield : a.field = field <;> simp [hfield]
  | merge before other ihb iho =>
    rw [collected, FieldErrors.under_merge, ihb, iho, added, List.filter_append, List.map_append]

/-- A field is listed iff an error was handed in for it. -/
theorem mem_fields_collected_iff :
    field ∈ h.collected.fields ↔ ∃ a ∈ h.added, a.field = field := by
  induction h with
  | start => simp [collected, added, FieldErrors.fields, FieldErrors.empty, NameMap.empty,
      NameMap.names]
  | add before a ih =>
    rw [collected, a.addTo_eq_append, FieldErrors.mem_fields_append_iff, ih, added]
    simp [or_and_right, exists_or]
  | merge before other ihb iho =>
    rw [collected, FieldErrors.mem_fields_merge_iff, ihb, iho, added]
    simp [or_and_right, exists_or]

theorem size_collected (h : ErrorHistory) : h.collected.size = h.added.length := by
  induction h with
  | start => rfl
  | add before a ih =>
    rw [collected, a.addTo_eq_append, FieldErrors.size_append, ih, added, List.length_append]
    rfl
  | merge before other ihb iho =>
    rw [collected, FieldErrors.size_merge, ihb, iho, added, List.length_append]

/-- A field that is present has errors. -/
theorem ne_nil_of_get? {l : List FieldError} (hl : h.collected.get? field = some l) : l ≠ [] := by
  rw [FieldErrors.get?_eq_ite] at hl
  split at hl
  · next hmem =>
    cases hl
    obtain ⟨a, ha, hfield⟩ := mem_fields_collected_iff.mp hmem
    rw [under_collected]
    exact List.ne_nil_of_mem
      (List.mem_map_of_mem (List.mem_filter.mpr ⟨ha, beq_iff_eq.mpr hfield⟩))
  · cases hl

theorem fields_eq_nil_iff : h.collected.fields = [] ↔ h.added = [] := by
  rw [List.eq_nil_iff_forall_not_mem, List.eq_nil_iff_forall_not_mem]
  simp only [mem_fields_collected_iff]
  constructor
  · exact fun hnone a ha => hnone a.field ⟨a, ha, rfl⟩
  · rintro hnone field ⟨a, ha, -⟩
    exact hnone a ha

/-- An error that was handed in for a field is kept there, and names a field. -/
theorem exists_named {e : FieldError} (ha : .toField field e ∈ h.added) :
    ∃ named ∈ h.collected.under field, named.field = some (e.field.getD field) ∧
      { named with field := e.field } = e := by
  refine ⟨e.inField field, ?_, rfl, rfl⟩
  rw [under_collected]
  exact List.mem_map.mpr ⟨_, List.mem_filter.mpr ⟨ha, beq_self_eq_true _⟩, rfl⟩

end ErrorHistory

/-- **A collection of errors loses nothing and has one form.** However it was built by adding
errors, adding errors of the page and merging collections: no field is present without errors, so
there are three ways to say that it is empty; it holds as many errors as were added, and for each
field those that were added for it, in that order; the fields ascend; an error that was added for a
field names a field. Merging is associative, and the empty collection is its unit. -/
theorem FieldErrors.collected_canonical (h : ErrorHistory) :
    (∀ field l, h.collected.get? field = some l → l ≠ []) ∧
    (h.collected.isEmpty = true ↔ h.collected.size = 0) ∧
    (h.collected.isEmpty = true ↔ h.collected.fields = []) ∧
    h.collected.size = h.added.length ∧
    (∀ field, h.collected.under field =
      (h.added.filter (·.field == field)).map AddedError.kept) ∧
    h.collected.fields.Pairwise (· < ·) ∧
    (∀ field e, .toField field e ∈ h.added →
      ∃ named ∈ h.collected.under field, named.field = some (e.field.getD field) ∧
        { named with field := e.field } = e) ∧
    (∀ a b c : FieldErrors, (a.merge b).merge c = a.merge (b.merge c)) ∧
    ∀ a : FieldErrors, a.merge empty = a ∧ empty.merge a = a := by
  have hsize := h.size_collected
  have hempty : h.collected.isEmpty = true ↔ h.collected.fields = [] := by
    rw [isEmpty_iff_size, hsize, List.length_eq_zero_iff, ErrorHistory.fields_eq_nil_iff]
  exact ⟨fun field l => ErrorHistory.ne_nil_of_get?, isEmpty_iff_size, hempty, hsize,
    h.under_collected, fields_pairwise _, fun field e => ErrorHistory.exists_named, merge_assoc,
    fun a => ⟨merge_empty a, empty_merge a⟩⟩

/-- An error of a field and one of the page, and then those of another collection. -/
def ErrorHistory.signup : ErrorHistory :=
  .merge
    (.add (.add .start (.toField "name" (.simple "too short"))) (.toPage (.simple "try again")))
    (.add (.add .start (.toField "email" (.simple "missing"))) (.toField "name" (.simple "taken")))

/-- Four errors of three fields, the merged ones behind those that were there. -/
theorem FieldErrors.collected_canonical_signup :
    .toField "email" (.simple "missing") ∈ ErrorHistory.signup.added ∧
    (∃ named ∈ ErrorHistory.signup.collected.under "email", named.field = some "email") ∧
    ErrorHistory.signup.collected.get? "name" ≠ some [] ∧
    ErrorHistory.signup.collected.size = 4 ∧
    ErrorHistory.signup.collected.fields = ["__page", "email", "name"] ∧
    ErrorHistory.signup.collected.under "name" =
      [(FieldError.simple "too short").inField "name",
        (FieldError.simple "taken").inField "name"] := by
  obtain ⟨hne, -, -, hsize, hunder, -, hnamed, -⟩ := collected_canonical ErrorHistory.signup
  have hmem : .toField "email" (.simple "missing") ∈ ErrorHistory.signup.added := by
    simp [ErrorHistory.signup, ErrorHistory.added]
  obtain ⟨named, hkept, hfield, -⟩ := hnamed "email" _ hmem
  exact ⟨hmem, ⟨named, hkept, hfield⟩, fun h => hne "name" [] h rfl, hsize, by decide +kernel,
    hunder "name"⟩

end Formwork
