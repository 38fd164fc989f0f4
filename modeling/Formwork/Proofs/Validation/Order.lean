import Formwork.Proofs.Validation.Rows
import Formwork.Proofs.Validation.RuleSets

/-!
# Order of rules and names

Rules are checked in the order of their declarations, on names in ascending order, and all errors go
into one collection. Its lists depend on neither order: with one rule for a field, and fields
without indexes, all errors under a name come from one rule.

- **Names** (`sorted_names_perm`, `isBlankRow_iff_othersBlank`): listing names in another order
  changes nothing, and of the other parameters of a row it only counts whether they are blank.
- **Parameters** (`parameterErrors_congr`): what a rule reads of a submission for a parameter.
- **Rules** (`filter_applicable`): under a name stand the errors of the rule of its field
  (`RuleSet.ruleFor?`), under a submitted one only those of the parameter
  (`filter_applicable_of_mem`).
- **Order** (`validate_order`): the same errors in every order, and what those of a name depend on.
-/

namespace Formwork

/-! ## Names -/

namespace FieldValues

variable {v w : FieldValues} {name : String}

/-- The names in ascending order do not depend on the order in which they were listed. -/
theorem sorted_names_perm {names : List String} (h : names.Perm v.names) :
    FieldValues.sorted { v with names := names } = v.sorted := by
  have hascending : ∀ l : List String,
      (l.mergeSort fun a b => decide (a ≤ b)).Pairwise fun a b => a ≤ b := fun l => by
    have hl := @List.pairwise_mergeSort String (fun a b => decide (a ≤ b))
      (fun a b c hab hbc =>
        decide_eq_true (String.le_trans (of_decide_eq_true hab) (of_decide_eq_true hbc)))
      (fun a b => by simpa using String.le_total a b) l
    simpa using hl
  have hperm : (names.mergeSort fun a b => decide (a ≤ b)).Perm
      (v.names.mergeSort fun a b => decide (a ≤ b)) :=
    (List.mergeSort_perm _ _).trans (h.trans (List.mergeSort_perm _ _).symm)
  have hnames : (names.mergeSort fun a b => decide (a ≤ b)) =
      v.names.mergeSort fun a b => decide (a ≤ b) :=
    hperm.eq_of_pairwise (fun _ _ _ _ => String.le_antisymm) (hascending _) (hascending _)
  unfold sorted
  rw [hnames]

theorem count_sorted_names : v.sorted.names.count name = v.names.count name :=
  (List.mergeSort_perm _ _).count_eq name

/-- All other parameters of the row of a parameter are blank. -/
def OthersBlank (v : FieldValues) (name : String) : Prop :=
  ∀ row ∈ row? name, ∀ other ∈ v.names, isInRow row other = true → other ≠ name →
    allBlank (v.values other) = true

/-- The row of a blank parameter is blank iff the others in it are. -/
theorem isBlankRow_iff_othersBlank (h : allBlank (v.values name) = true) :
    v.isBlankRow name = true ↔ (row? name).isSome = true ∧ v.OthersBlank name := by
  unfold isBlankRow OthersBlank
  cases row? name with
  | none => simp
  | some row =>
    simp only [Option.isSome_some, true_and, Option.mem_some_iff, forall_eq']
    rw [List.all_eq_true]
    simp only [List.mem_filter, and_imp]
    constructor
    · exact fun hall other hm hrow _ => hall other hm hrow
    · intro hothers other hm hrow
      by_cases hname : other = name
      · exact hname ▸ h
      · exact hothers other hm hrow hname

/-- Two submissions list a parameter as often, say the same of it, and agree on whether the rest of
its row is blank. -/
structure AgreeAt (v w : FieldValues) (name : String) : Prop where
  count_eq : v.names.count name = w.names.count name
  values_eq : v.values name = w.values name
  numbers_eq : v.numbers name = w.numbers name
  conversionFailed_eq : v.conversionFailed name = w.conversionFailed name
  othersBlank_iff : v.OthersBlank name ↔ w.OthersBlank name

theorem AgreeAt.isBlankRow_eq (h : v.AgreeAt w name) (hb : allBlank (v.values name) = true) :
    v.isBlankRow name = w.isBlankRow name := by
  rw [Bool.eq_iff_iff, isBlankRow_iff_othersBlank hb,
    isBlankRow_iff_othersBlank (h.values_eq ▸ hb), h.othersBlank_iff]

end FieldValues

namespace CompiledRule

variable {c : CompiledRule} {v w : FieldValues} {scope : RequiredScope} {name : String}

/-- A rule reads nothing else for a parameter. -/
theorem parameterErrors_congr (h : v.AgreeAt w name) :
    c.parameterErrors v name = c.parameterErrors w name := by
  have hpresent : v.present name = w.present name := by
    rw [FieldValues.present, h.values_eq, FieldValues.present]
  have hlength : c.lengthErrors v name = c.lengthErrors w name := by
    rw [lengthErrors, hpresent, lengthErrors]
  have hrange : c.rangeErrors v name = c.rangeErrors w name := by
    rw [rangeErrors, hpresent, h.numbers_eq, rangeErrors]
  have hmask : c.maskErrors v name = c.maskErrors w name := by
    rw [maskErrors, hpresent, maskErrors]
  unfold parameterErrors Check.required
  rw [← h.values_eq, hlength, hrange, hmask, h.conversionFailed_eq]
  by_cases hb : allBlank (v.values name) = true
  · rw [h.isBlankRow_eq hb]
  · have hfilled : ¬ (v.values name).all Text.isBlank = true := hb
    simp only [if_neg hfilled]

/-- An error of a rule is about a parameter of its field, or it says that the field is missing. -/
theorem missing_or_fieldName_of_mem_errors {x : String × FieldError}
    (h : x ∈ c.errors v scope) : x = (c.field, Check.missing) ∨ fieldName x.1 = c.field := by
  unfold errors at h
  split at h
  · split at h
    · exact .inl (List.mem_singleton.mp h)
    · cases h
  · obtain ⟨n, hn, hx⟩ := List.mem_flatMap.mp h
    obtain ⟨e, -, rfl⟩ := List.mem_map.mp hx
    exact .inr (beq_iff_eq.mp (List.mem_filter.mp hn).2)

/-- The errors of a rule are about its field. -/
theorem fieldName_of_mem_errors (hf : fieldName c.field = c.field) {x : String × FieldError}
    (h : x ∈ c.errors v scope) : fieldName x.1 = c.field := by
  rcases missing_or_fieldName_of_mem_errors h with rfl | hx
  · exact hf
  · exact hx

/-- Under a name of its field a rule has the errors of the parameter, as often as it is listed. -/
theorem filter_errors (hm : name ∈ v.names) (hf : fieldName name = c.field) :
    (c.errors v scope).filter (·.1 == name) =
      (List.replicate (v.names.count name) ((c.parameterErrors v name).map (name, ·))).flatten := by
  have hmem : name ∈ v.names.filter fun name => fieldName name == c.field :=
    List.mem_filter.mpr ⟨hm, beq_iff_eq.mpr hf⟩
  have hown : ∀ n ∈ v.names.filter fun name => fieldName name == c.field,
      ∀ x ∈ (c.parameterErrors v n).map fun e => (n, e), x.1 = id n := by
    intro n _ x hx
    obtain ⟨e, -, rfl⟩ := List.mem_map.mp hx
    rfl
  have hlisted : (v.names.filter fun name => fieldName name == c.field).filter (id · == name) =
      List.replicate (v.names.count name) name := by
    rw [List.filter_filter, ← List.filter_beq]
    refine List.filter_congr fun n _ => ?_
    by_cases hn : n = name
    · simp [hn, hf]
    · simp [hn]
  unfold errors
  split
  · next hnil =>
    rw [hnil] at hmem
    cases hmem
  · rw [filter_flatMap_key hown, hlisted, List.flatMap_replicate]

end CompiledRule

namespace RuleSet

variable {s s' : RuleSet} {v w : FieldValues} {event event' name : String}
  {scope scope' : RequiredScope}

/-- The rule of the field of a name, if it counts for the event. -/
def ruleFor? (s : RuleSet) (event name : String) : Option CompiledRule :=
  (s.applicable event).find? (·.field == fieldName name)

theorem Distinct.applicable (hs : s.Distinct) (event : String) :
    ((s.applicable event).map (·.field)).Nodup := hs.sublist (List.filter_sublist.map _)

theorem ruleFor?_eq_some_iff (hs : s.Distinct) {c : CompiledRule} :
    s.ruleFor? event name = some c ↔ c ∈ s.applicable event ∧ c.field = fieldName name :=
  find?_key_eq_some_iff (hs.applicable event)

/-- Under a name there are only errors of the rule of its field. -/
theorem filter_applicable (hs : s.Distinct) (hf : ∀ c ∈ s.rules, fieldName c.field = c.field) :
    ((s.applicable event).flatMap fun c => c.errors v scope).filter (·.1 == name) =
      (s.ruleFor? event name).toList.flatMap fun c =>
        (c.errors v scope).filter (·.1 == name) := by
  rw [List.filter_flatMap]
  refine flatMap_eq_of_key (hs.applicable event) fun c hc hne => ?_
  obtain ⟨x, hx⟩ := List.exists_mem_of_ne_nil _ hne
  obtain ⟨hx, hname⟩ := List.mem_filter.mp hx
  rw [← beq_iff_eq.mp hname]
  exact (CompiledRule.fieldName_of_mem_errors (hf c (List.mem_of_mem_filter hc)) hx).symm

theorem ruleFor?_perm (hs : s.Distinct) (hp : s'.rules.Perm s.rules) :
    s'.ruleFor? event name = s.ruleFor? event name := by
  have hs' : s'.Distinct := (hp.map _).nodup_iff.mpr hs
  refine Option.ext fun c => ?_
  rw [ruleFor?_eq_some_iff hs', ruleFor?_eq_some_iff hs, applicable, applicable, List.mem_filter,
    List.mem_filter, hp.mem_iff]

theorem validate_perm (hs : s.Distinct) (hf : ∀ c ∈ s.rules, fieldName c.field = c.field)
    (hp : s'.rules.Perm s.rules) {names : List String} (hn : names.Perm v.names) :
    s'.validate { v with names := names } event scope = s.validate v event scope := by
  have hs' : s'.Distinct := (hp.map _).nodup_iff.mpr hs
  have hf' : ∀ c ∈ s'.rules, fieldName c.field = c.field := fun c hc => hf c (hp.mem_iff.mp hc)
  unfold validate
  rw [FieldValues.sorted_names_perm hn]
  refine FieldErrors.addAll_empty_congr fun name => ?_
  rw [filter_applicable hs' hf', filter_applicable hs hf, ruleFor?_perm hs hp]

/-- What the rules say under a submitted name. -/
theorem filter_applicable_of_mem (hs : s.Distinct)
    (hf : ∀ c ∈ s.rules, fieldName c.field = c.field) (hm : name ∈ v.names) :
    ((s.applicable event).flatMap fun c => c.errors v scope).filter (·.1 == name) =
      (s.ruleFor? event name).toList.flatMap fun c => (List.replicate (v.names.count name)
        ((c.parameterErrors v name).map (name, ·))).flatten := by
  rw [filter_applicable hs hf]
  refine List.flatMap_congr fun c hc => ?_
  obtain ⟨-, hfield⟩ := (ruleFor?_eq_some_iff hs).mp (Option.mem_toList.mp hc)
  exact CompiledRule.filter_errors hm hfield.symm

theorem get?_validate (hs : s.Distinct) (hf : ∀ c ∈ s.rules, fieldName c.field = c.field)
    (hs' : s'.Distinct) (hf' : ∀ c ∈ s'.rules, fieldName c.field = c.field) (hm : name ∈ v.names)
    (hv : v.AgreeAt w name) (hrule : s'.ruleFor? event' name = s.ruleFor? event name) :
    (s'.validate w event' scope').get? name = (s.validate v event scope).get? name := by
  have hm' : name ∈ w.names := by
    rw [← List.count_pos_iff, ← hv.count_eq]
    exact List.count_pos_iff.mpr hm
  unfold validate
  rw [FieldErrors.get?_addAll_empty, FieldErrors.get?_addAll_empty,
    filter_applicable_of_mem hs' hf' (FieldValues.mem_sorted_names_iff.mpr hm'),
    filter_applicable_of_mem hs hf (FieldValues.mem_sorted_names_iff.mpr hm), hrule]
  simp only [CompiledRule.parameterErrors_sorted, FieldValues.count_sorted_names, hv.count_eq,
    CompiledRule.parameterErrors_congr hv]

/-- **Order of rules and names.** With one rule for a field, and fields without indexes, the same
rules in another order give the same errors for the same names in another order. Rules that are
declared for distinct fields can be declared in any order. The errors under a submitted name are
those that any other rules find in any other submission, whatever the event and the page, if the
field of the name has the same rule that counts, the name is listed as often and has the same
values, the same numbers and the same outcome of the conversion, and the rest of its row is blank in
both or in neither. -/
theorem validate_order {s : RuleSet} (hs : s.Distinct)
    (hf : ∀ c ∈ s.rules, fieldName c.field = c.field) (v : FieldValues) (event : String)
    (scope : RequiredScope) :
    (∀ (s' : RuleSet) (names : List String), s'.rules.Perm s.rules → names.Perm v.names →
      s'.validate { v with names := names } event scope = s.validate v event scope) ∧
    (∀ declared declared' : List FieldRule, (declared.map (·.field)).Nodup →
      build declared = .ok s → declared'.Perm declared →
      ∃ s', build declared' = .ok s' ∧ s'.rules.Perm s.rules) ∧
    ∀ (s' : RuleSet) (w : FieldValues) (event' : String) (scope' : RequiredScope) (name : String),
      s'.Distinct → (∀ c ∈ s'.rules, fieldName c.field = c.field) → name ∈ v.names →
      v.AgreeAt w name → s'.ruleFor? event' name = s.ruleFor? event name →
      (s'.validate w event' scope').get? name = (s.validate v event scope).get? name :=
  ⟨fun _ _ hp hn => validate_perm hs hf hp hn,
    fun _ _ hd hb hp => exists_build_perm hb hd hp,
    fun _ _ _ _ _ hs' hf' hm hv hrule => get?_validate hs hf hs' hf' hm hv hrule⟩

/-- What is said of the quantity of the first item hangs on the row of that item alone: another name
in it, another item, another event and another page make no difference. -/
theorem validate_order_items :
    (requiring ["items.quantity", "items.name"]).validate
        { FieldValues.ofPairs [("items[0].name", "pen"), ("items[0].quantity", "")] with
          names := ["items[0].quantity", "items[0].name"] } "save" .all =
      (requiring ["items.name", "items.quantity"]).validate
        (.ofPairs [("items[0].name", "pen"), ("items[0].quantity", "")]) "save" .all ∧
    ((requiring ["items.quantity"]).validate
        (.ofPairs [("items[1].quantity", "2"), ("items[0].quantity", ""),
          ("items[0].name", "ink")]) "sell" (.manifest [])).get? "items[0].quantity" =
      ((requiring ["items.name", "items.quantity"]).validate
        (.ofPairs [("items[0].name", "pen"), ("items[0].quantity", "")]) "save" .all).get?
          "items[0].quantity" := by
  have hs : (requiring ["items.name", "items.quantity"]).Distinct := by decide
  have hf : ∀ c ∈ (requiring ["items.name", "items.quantity"]).rules,
      fieldName c.field = c.field := by decide +kernel
  obtain ⟨hperm, -, hreads⟩ := validate_order hs hf
    (.ofPairs [("items[0].name", "pen"), ("items[0].quantity", "")]) "save" .all
  refine ⟨hperm _ _ (.swap ..) (.swap ..), hreads _ _ _ _ _ (by decide) (by decide +kernel)
    (by decide) ⟨by decide, by decide, rfl, rfl, ?_⟩ ?_⟩
  · refine iff_of_false (fun h => ?_) (fun h => ?_)
    · exact absurd (h "items[0]".toList (by decide +kernel) "items[0].name" (by decide)
        (by decide +kernel) (by decide)) (by decide +kernel)
    · exact absurd (h "items[0]".toList (by decide +kernel) "items[0].name" (by decide)
        (by decide +kernel) (by decide)) (by decide +kernel)
  · rfl

end RuleSet

end Formwork
