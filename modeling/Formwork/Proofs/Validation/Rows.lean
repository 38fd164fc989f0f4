import Formwork.Proofs.Validation.Fields

/-!
# Required fields of rows

A parameter such as `items[2].name` stands in the row `items[2]`, the part of its name up to the
last closing bracket.

- **Rows** (`row?_append`, `isInRow_iff`, `isBlankRow_iff`): how the checks find the row of a
  parameter, its other parameters, and whether all of them are blank.
- **Order** (`isEmpty_validate_iff_unsorted`): whether there are errors does not hang on the order
  of the names.
- **Missing values** (`missing_mem_parameterErrors_iff`): which parameters are reported as missing.
- **Required fields** (`filled_of_validate`): without errors, a parameter of a required field is
  filled in if anything of its row is. A parameter that was not submitted is asked for only if none
  of its field was, so that a row can do without it as long as another row has it
  (`not_rowsFilled`).
-/

namespace Formwork

/-- The parameter stands in the row: its name ends with that of the row, or goes on with a name or
an index. -/
def InRow (row name : String) : Prop :=
  ∃ rest, name = row ++ rest ∧ ∀ c ∈ rest.toList.head?, c = '.' ∨ c = '['

theorem inRow_dot (row below : String) : InRow row (row ++ "." ++ below) := by
  refine ⟨"." ++ below, String.append_assoc .., fun c hc => .inl ?_⟩
  have hhead : ("." ++ below).toList = '.' :: below.toList := String.toList_append
  rw [hhead] at hc
  exact (Option.some.inj hc).symm

namespace FieldValues

variable {v : FieldValues} {name row : String}

/-- A parameter was submitted, and not all of its values are blank. -/
def Filled (v : FieldValues) (name : String) : Prop :=
  name ∈ v.names ∧ allBlank (v.values name) = false

instance : Decidable (v.Filled name) := inferInstanceAs (Decidable (_ ∧ _))

/-- Something in the row is filled in. -/
def RowFilled (v : FieldValues) (row : String) : Prop := ∃ name, InRow row name ∧ v.Filled name

/-! ## Rows -/

theorem row?_append {rest : String} (hrow : row.toList.getLast? = some ']')
    (hrest : ']' ∉ rest.toList) : row? (row ++ rest) = some row.toList := by
  obtain ⟨front, hfront⟩ := List.getLast?_eq_some_iff.mp hrow
  have hpass : ∀ c ∈ rest.toList.reverse, (c != ']') = true := by
    intro c hc
    rw [bne_iff_ne]
    rintro rfl
    exact hrest (List.mem_reverse.mp hc)
  unfold row?
  rw [String.toList_append, List.reverse_append, List.dropWhile_append_of_pos hpass, hfront]
  simp

theorem isInRow_iff : isInRow row.toList name = true ↔ InRow row name := by
  unfold isInRow InRow
  rw [Bool.and_eq_true, List.isPrefixOf_iff_prefix]
  constructor
  · rintro ⟨⟨rest, hr⟩, hnext⟩
    rw [← hr, List.drop_left] at hnext
    refine ⟨String.ofList rest, ?_, ?_⟩
    · rw [← String.toList_inj, String.toList_append, String.toList_ofList, hr]
    · rw [String.toList_ofList]
      cases rest with
      | nil => simp
      | cons c rest => simpa using hnext
  · rintro ⟨rest, rfl, hnext⟩
    rw [String.toList_append, List.drop_left]
    refine ⟨List.prefix_append _ _, ?_⟩
    cases hl : rest.toList with
    | nil => rfl
    | cons c l =>
      rw [hl] at hnext
      simpa using hnext c rfl

theorem isBlankRow_iff (h : row? name = some row.toList) :
    v.isBlankRow name = true ↔ ¬ v.RowFilled row := by
  unfold isBlankRow RowFilled Filled
  rw [h]
  simp only [allBlank, List.all_eq_true (l := v.names.filter _), List.mem_filter, isInRow_iff,
    not_exists, not_and, Bool.not_eq_false]
  exact ⟨fun hb n hn hm => hb n ⟨hm, hn⟩, fun hb n h => hb n h.2 h.1⟩

/-! ## Order of the names -/

theorem isBlankRow_sorted : v.sorted.isBlankRow name = v.isBlankRow name := by
  unfold isBlankRow
  cases row? name with
  | none => rfl
  | some row =>
    rw [Bool.eq_iff_iff]
    simp only [List.all_eq_true, List.mem_filter, mem_sorted_names_iff]
    rfl

end FieldValues

namespace CompiledRule

variable {c : CompiledRule} {v : FieldValues} {name : String}

theorem parameterErrors_sorted : c.parameterErrors v.sorted name = c.parameterErrors v name := by
  unfold parameterErrors
  rw [FieldValues.isBlankRow_sorted]
  rfl

theorem errors_eq_nil_iff {scope : RequiredScope} :
    c.errors v scope = [] ↔
      (∀ name ∈ v.names, fieldName name = c.field → c.parameterErrors v name = []) ∧
        (c.rule.required = true → scope.requires c.field = true →
          ∃ name ∈ v.names, fieldName name = c.field) := by
  unfold errors
  split
  · next hnil =>
    have hnone := List.filter_eq_nil_iff.mp hnil
    simp only [beq_iff_eq] at hnone
    rw [ite_eq_right_iff, Bool.and_eq_true]
    constructor
    · intro h
      exact ⟨fun name hm hf => absurd hf (hnone name hm), fun hr hs => nomatch h ⟨hr, hs⟩⟩
    · rintro ⟨-, h⟩ ⟨hr, hs⟩
      obtain ⟨name, hm, hf⟩ := h hr hs
      exact absurd hf (hnone name hm)
  · next names hne =>
    obtain ⟨first, hfirst⟩ := List.exists_mem_of_ne_nil _ hne
    obtain ⟨hm, hf⟩ := List.mem_filter.mp hfirst
    simp only [List.flatMap_eq_nil_iff, List.mem_filter, beq_iff_eq, List.map_eq_nil_iff, and_imp]
    exact ⟨fun h => ⟨h, fun _ _ => ⟨first, hm, beq_iff_eq.mp hf⟩⟩, fun h => h.1⟩

theorem errors_sorted_eq_nil_iff {scope : RequiredScope} :
    c.errors v.sorted scope = [] ↔ c.errors v scope = [] := by
  simp only [errors_eq_nil_iff, FieldValues.mem_sorted_names_iff, parameterErrors_sorted]

/-! ## Missing values -/

/-- The errors of single values are those of their checks, with the parameter and the value. -/
theorem exists_of_mem_checked {α : Type} {l : List α} {check : α → Option FieldError}
    {text : α → String} {e : FieldError}
    (h : e ∈ l.filterMap fun x => (check x).map (·.setField name (some (text x)))) :
    ∃ x found, check x = some found ∧ e = found.setField name (some (text x)) := by
  obtain ⟨x, -, hx⟩ := List.mem_filterMap.mp h
  obtain ⟨found, hfound, rfl⟩ := Option.map_eq_some_iff.mp hx
  exact ⟨x, found, hfound, rfl⟩

/-- The errors of checks of single values name the parameter. -/
theorem field_of_mem_checked {α : Type} {l : List α} {check : α → Option FieldError}
    {text : α → String} {e : FieldError}
    (h : e ∈ l.filterMap fun x => (check x).map (·.setField name (some (text x)))) :
    e.field = some name := by
  obtain ⟨x, found, -, rfl⟩ := exists_of_mem_checked h
  rfl

theorem missing_not_mem_lengthErrors : Check.missing ∉ c.lengthErrors v name :=
  fun h => nomatch field_of_mem_checked h

theorem field_of_mem_rangeErrors {e : FieldError} (h : e ∈ c.rangeErrors v name) :
    e.field = some name := by
  unfold rangeErrors at h
  split at h
  · exact field_of_mem_checked h
  · cases h

theorem missing_not_mem_rangeErrors : Check.missing ∉ c.rangeErrors v name :=
  fun h => nomatch field_of_mem_rangeErrors h

theorem missing_not_mem_maskErrors : Check.missing ∉ c.maskErrors v name := by
  unfold maskErrors
  split
  · exact List.not_mem_nil
  · exact fun h => nomatch field_of_mem_checked h

/-- A parameter is reported as missing iff the field is required, the values are blank and the row
is not. -/
theorem missing_mem_parameterErrors_iff : Check.missing ∈ c.parameterErrors v name ↔
    c.rule.required = true ∧ allBlank (v.values name) = true ∧ v.isBlankRow name = false := by
  unfold parameterErrors Check.required
  by_cases hb : allBlank (v.values name) = true
  · have hall : (v.values name).all Text.isBlank = true := hb
    simp [hall, hb]
  · have hall : ¬ (v.values name).all Text.isBlank = true := hb
    simp only [hall, hb, Bool.false_eq_true, ↓reduceIte, false_and, and_false, iff_false,
      List.mem_append, missing_not_mem_lengthErrors, false_or]
    split
    · exact List.not_mem_nil
    · rw [List.mem_append, not_or]
      exact ⟨missing_not_mem_rangeErrors, missing_not_mem_maskErrors⟩

theorem mem_errors_iff {scope : RequiredScope} {e : FieldError} (hm : name ∈ v.names)
    (hf : fieldName name = c.field) :
    (name, e) ∈ c.errors v scope ↔ e ∈ c.parameterErrors v name := by
  have hmem : name ∈ v.names.filter fun name => fieldName name == c.field :=
    List.mem_filter.mpr ⟨hm, beq_iff_eq.mpr hf⟩
  unfold errors
  split
  · next hnil =>
    rw [hnil] at hmem
    cases hmem
  · simp only [List.mem_flatMap, List.mem_map, Prod.mk.injEq]
    constructor
    · rintro ⟨n, -, e', he, rfl, rfl⟩
      exact he
    · intro he
      exact ⟨name, hmem, e, he, rfl, rfl⟩

end CompiledRule

namespace RuleSet

theorem isEmpty_validate_iff_unsorted {s : RuleSet} {v : FieldValues} {event : String}
    {scope : RequiredScope} :
    (s.validate v event scope).isEmpty = true ↔
      ∀ c ∈ s.applicable event, c.errors v scope = [] := by
  simp only [isEmpty_validate_iff, CompiledRule.errors_sorted_eq_nil_iff]

/-! ## Required fields -/

/-- A submitted parameter of a row is reported as missing iff it is blank and something else of the
row is filled in. -/
theorem missing_mem_errors_iff {v : FieldValues} {c : CompiledRule} {row below : String}
    (hr : c.rule.required = true) (hrow : row.toList.getLast? = some ']')
    (hbelow : ']' ∉ below.toList) (hm : row ++ "." ++ below ∈ v.names)
    (hf : fieldName (row ++ "." ++ below) = c.field) :
    (row ++ "." ++ below, Check.missing) ∈ c.errors v.sorted .all ↔
      v.RowFilled row ∧ ¬ v.Filled (row ++ "." ++ below) := by
  have hown : FieldValues.row? (row ++ "." ++ below) = some row.toList := by
    rw [String.append_assoc]
    refine FieldValues.row?_append hrow ?_
    rw [String.toList_append]
    simpa using hbelow
  have hblank : v.isBlankRow (row ++ "." ++ below) = false ↔ v.RowFilled row := by
    rw [← Bool.not_eq_true, FieldValues.isBlankRow_iff hown, not_not]
  have hfilled : v.Filled (row ++ "." ++ below) ↔
      allBlank (v.values (row ++ "." ++ below)) = false := and_iff_right hm
  rw [CompiledRule.mem_errors_iff (FieldValues.mem_sorted_names_iff.mpr hm) hf,
    CompiledRule.parameterErrors_sorted, CompiledRule.missing_mem_parameterErrors_iff, hblank,
    hfilled, Bool.not_eq_false]
  constructor
  · rintro ⟨-, hall, hsome⟩
    exact ⟨hsome, hall⟩
  · rintro ⟨hsome, hall⟩
    exact ⟨hr, hall, hsome⟩

/-- **Required fields of rows**: if validation finds no errors, then of every required field some
parameter was submitted, and each one that was submitted in a row is filled in if anything of the
row is. It is reported as missing exactly if it is not. -/
theorem filled_of_validate (s : RuleSet) (v : FieldValues) (event : String) {c : CompiledRule}
    (hc : c ∈ s.applicable event) (hr : c.rule.required = true) :
    ((s.validate v event .all).isEmpty = true → ∃ name ∈ v.names, fieldName name = c.field) ∧
      ∀ row below : String, row.toList.getLast? = some ']' → ']' ∉ below.toList →
        row ++ "." ++ below ∈ v.names → fieldName (row ++ "." ++ below) = c.field →
          ((s.validate v event .all).isEmpty = true → v.RowFilled row →
            v.Filled (row ++ "." ++ below)) ∧
          ((row ++ "." ++ below, Check.missing) ∈ c.errors v.sorted .all ↔
            v.RowFilled row ∧ ¬ v.Filled (row ++ "." ++ below)) := by
  have hnone : (s.validate v event .all).isEmpty = true → c.errors v.sorted .all = [] :=
    fun h => isEmpty_validate_iff.mp h c hc
  refine ⟨fun h => ?_, fun row below hrow hbelow hm hf => ⟨fun h hfilled => ?_, ?_⟩⟩
  · obtain ⟨name, hm, hf⟩ := (CompiledRule.errors_eq_nil_iff.mp (hnone h)).2 hr rfl
    exact ⟨name, FieldValues.mem_sorted_names_iff.mp hm, hf⟩
  · by_contra hblank
    have hmissing := (missing_mem_errors_iff hr hrow hbelow hm hf).mpr ⟨hfilled, hblank⟩
    rw [hnone h] at hmissing
    cases hmissing
  · exact missing_mem_errors_iff hr hrow hbelow hm hf

/-- Rules that ask for a value of each field. -/
def requiring (fields : List String) : RuleSet :=
  ⟨fields.map fun field => ⟨{ field := field, required := true }, none⟩⟩

end RuleSet

/-- A submission with one value for each parameter and nothing to convert. -/
def FieldValues.ofPairs (pairs : List (String × String)) : FieldValues where
  names := pairs.map (·.1)
  submitted name := (pairs.lookup name).map ([·])
  numbers _ := []
  conversionFailed _ := false

namespace RuleSet

/-- The second row of the submission is blank and need not be filled in. -/
theorem filled_of_validate_items :
    (FieldValues.ofPairs [("items[0].name", "abc"), ("items[0].quantity", "2"),
      ("items[1].name", " "), ("items[1].quantity", "")]).Filled "items[0].quantity" := by
  have hvalid : ((requiring ["items.name", "items.quantity"]).validate
      (.ofPairs [("items[0].name", "abc"), ("items[0].quantity", "2"),
        ("items[1].name", " "), ("items[1].quantity", "")]) "save" .all).isEmpty = true :=
    isEmpty_validate_iff_unsorted.mpr (by decide +kernel)
  have hrule : ⟨{ field := "items.quantity", required := true }, none⟩ ∈
      (requiring ["items.name", "items.quantity"]).applicable "save" :=
    List.mem_cons_of_mem _ (List.mem_singleton.mpr rfl)
  obtain ⟨-, hrows⟩ := filled_of_validate _ (.ofPairs [("items[0].name", "abc"),
    ("items[0].quantity", "2"), ("items[1].name", " "), ("items[1].quantity", "")]) "save" hrule rfl
  obtain ⟨hfilled, -⟩ := hrows "items[0]" "quantity" (by decide +kernel) (by decide +kernel)
    (by decide +kernel) (by decide +kernel)
  exact hfilled hvalid ⟨"items[0]" ++ "." ++ "name", inRow_dot .., by decide +kernel⟩

/-- What is expected of rows if a parameter that is missing from a row counts as a blank one. -/
def RowsFilled (s : RuleSet) (v : FieldValues) (event : String) : Prop :=
  ∀ c ∈ s.applicable event, c.rule.required = true →
    ∀ row below : String, row.toList.getLast? = some ']' →
      c.field = fieldName row ++ "." ++ below → v.RowFilled row → v.Filled (row ++ "." ++ below)

/-- Validation finds no errors, but some row that is not blank lacks a required field. -/
def Overlooks (fields : List String) (pairs : List (String × String)) : Prop :=
  ((requiring fields).validate (.ofPairs pairs) "save" .all).isEmpty = true ∧
    ¬ (requiring fields).RowsFilled (.ofPairs pairs) "save"

theorem overlooks_of_unfilled {fields : List String} {pairs : List (String × String)}
    (row below other : String)
    (hvalid : ∀ c ∈ (requiring fields).applicable "save", c.errors (.ofPairs pairs) .all = [])
    (hfield : fieldName row ++ "." ++ below ∈ fields) (hrow : row.toList.getLast? = some ']')
    (hother : (FieldValues.ofPairs pairs).Filled (row ++ "." ++ other))
    (hbelow : ¬ (FieldValues.ofPairs pairs).Filled (row ++ "." ++ below)) :
    Overlooks fields pairs := by
  refine ⟨isEmpty_validate_iff_unsorted.mpr hvalid, fun h => hbelow ?_⟩
  refine h ⟨{ field := fieldName row ++ "." ++ below, required := true }, none⟩ ?_ rfl row below
    hrow rfl ⟨_, inRow_dot row other, hother⟩
  exact List.mem_filter.mpr ⟨List.mem_map_of_mem hfield, rfl⟩

/-- **Rows that lack a field**: the quantity of the first row was left out, but not that of the
second one. A closing bracket behind the row hides the row's other parameters, and a bracket that
is hidden by a quote leaves the parameter without a rule. -/
theorem not_rowsFilled :
    Overlooks ["items.name", "items.quantity"]
        [("items[0].name", "abc"), ("items[1].name", "def"), ("items[1].quantity", "2")] ∧
      Overlooks ["items.a]b"] [("items[0].a]b", ""), ("items[0].name", "abc")] ∧
      Overlooks ["items.quantity"]
        [("items['0].name", "abc"), ("items['0].quantity", ""), ("items.quantity", "2")] :=
  ⟨overlooks_of_unfilled "items[0]" "quantity" "name" (by decide +kernel) (by decide +kernel)
      (by decide +kernel) (by decide +kernel) (by decide +kernel),
    overlooks_of_unfilled "items[0]" "a]b" "name" (by decide +kernel) (by decide +kernel)
      (by decide +kernel) (by decide +kernel) (by decide +kernel),
    overlooks_of_unfilled "items['0]" "quantity" "name" (by decide +kernel) (by decide +kernel)
      (by decide +kernel) (by decide +kernel) (by decide +kernel)⟩

end RuleSet

end Formwork
