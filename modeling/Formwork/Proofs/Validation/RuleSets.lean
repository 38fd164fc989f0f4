import Formwork.Bean
import Formwork.Proofs.Except
import Mathlib.Data.List.Nodup
import Mathlib.Data.List.Perm.Basic

/-!
# One rule for a field

A set of rules has one rule for each field at most (`RuleSet.Distinct`): putting a rule in keeps
this (`distinct_insert`), so that declared sets have it (`distinct_build`), also with the rules of
nested beans (`distinct_nest`), and those of bean types too (`BeanType.distinct_withRules`).
-/

namespace Formwork

theorem CompiledRule.rule_of_compile {r : FieldRule} {c : CompiledRule}
    (h : CompiledRule.compile r = .ok c) : c.rule = r := by
  have hpattern : ∀ {c}, compileWith.withPattern Text.Pattern.engine r = .ok c → c.rule = r := by
    intro c h
    unfold compileWith.withPattern at h
    split at h
    · cases h
      rfl
    · split at h <;> cases h
      rfl
  unfold compile compileWith at h
  split at h
  · split at h
    · cases h
    · exact hpattern h
  · exact hpattern h

namespace RuleSet

variable {s : RuleSet}

/-- There is one rule for a field at most. -/
def Distinct (s : RuleSet) : Prop := (s.rules.map (·.field)).Nodup

instance : Decidable s.Distinct := inferInstanceAs (Decidable (List.Nodup _))

theorem contains_eq_true_iff {field : String} :
    s.contains field = true ↔ field ∈ s.rules.map (·.field) := by
  unfold contains
  simp only [List.any_eq_true, beq_iff_eq, List.mem_map]

theorem distinct_empty : empty.Distinct := List.nodup_nil

/-- Putting a rule in puts its field behind the others, if it is not among them. -/
theorem fields_insert (s : RuleSet) (c : CompiledRule) :
    (s.insert c).rules.map (·.field) =
      if s.contains c.field then s.rules.map (·.field) else s.rules.map (·.field) ++ [c.field] := by
  unfold insert
  cases s.contains c.field with
  | true =>
    rw [if_pos rfl, if_pos rfl, List.map_map]
    refine List.map_congr_left fun d _ => ?_
    rw [Function.comp_apply]
    split
    · next hd => exact (beq_iff_eq.mp hd).symm
    · rfl
  | false => exact List.map_append

theorem mem_insert {c d : CompiledRule} :
    d ∈ (s.insert c).rules ↔ d = c ∨ d ∈ s.rules ∧ d.field ≠ c.field := by
  unfold insert
  cases hc : s.contains c.field with
  | true =>
    obtain ⟨old, hold, hfield⟩ := List.mem_map.mp (contains_eq_true_iff.mp hc)
    rw [if_pos rfl, List.mem_map]
    constructor
    · rintro ⟨e, he, rfl⟩
      by_cases hf : e.field = c.field <;> simp [hf, he]
    · rintro (rfl | ⟨hd, hne⟩)
      · exact ⟨old, hold, by simp [hfield]⟩
      · exact ⟨d, hd, by simp [hne]⟩
  | false =>
    have hnew : ∀ e ∈ s.rules, e.field ≠ c.field := by
      intro e he hf
      rw [← Bool.not_eq_true, contains_eq_true_iff] at hc
      exact hc (hf ▸ List.mem_map_of_mem he)
    rw [if_neg Bool.false_ne_true, List.mem_append, List.mem_singleton]
    exact ⟨fun h => h.symm.imp_right fun hd => ⟨hd, hnew d hd⟩,
      fun h => h.symm.imp_left And.left⟩

/-- Putting a rule in keeps the rules apart. -/
theorem distinct_insert (h : s.Distinct) (c : CompiledRule) : (s.insert c).Distinct := by
  unfold Distinct
  rw [fields_insert]
  split
  · exact h
  · next hc =>
    rw [contains_eq_true_iff] at hc
    exact h.append (List.nodup_singleton _) (List.disjoint_singleton.mpr hc)

theorem distinct_foldl_insert {rules : List CompiledRule} (h : s.Distinct) :
    (rules.foldl insert s).Distinct := by
  induction rules generalizing s with
  | nil => exact h
  | cons c rest ih => exact ih (distinct_insert h c)

/-- Declared rules are apart, however often a field is declared. -/
theorem distinct_build {declared : List FieldRule} (h : build declared = .ok s) : s.Distinct := by
  unfold build at h
  cases hr : declared.mapM CompiledRule.compile with
  | error e =>
    rw [hr] at h
    cases h
  | ok rules =>
    rw [hr] at h
    cases h
    exact distinct_foldl_insert distinct_empty

theorem distinct_nest (h : s.Distinct) (outer : String) (nested : RuleSet) :
    (s.nest outer nested).Distinct := by
  unfold nest
  induction nested.rules generalizing s with
  | nil => exact h
  | cons c rest ih =>
    rw [List.foldl_cons]
    split
    · exact ih h
    · exact ih (distinct_insert h _)

/-- Rules of new fields are put behind the others. -/
theorem rules_foldl_insert {rules : List CompiledRule}
    (h : ((s.rules ++ rules).map (·.field)).Nodup) :
    (rules.foldl insert s).rules = s.rules ++ rules := by
  induction rules generalizing s with
  | nil => exact (List.append_nil _).symm
  | cons c rest ih =>
    have hnew : s.contains c.field = false := by
      rw [← Bool.not_eq_true, contains_eq_true_iff]
      intro hold
      rw [List.map_append, List.nodup_append] at h
      exact h.2.2 _ hold _ (List.mem_map_of_mem List.mem_cons_self) rfl
    have hinsert : (s.insert c).rules = s.rules ++ [c] := by
      rw [insert, if_neg (by simp [hnew])]
    rw [List.foldl_cons, ih, hinsert, List.append_assoc, List.singleton_append]
    rwa [hinsert, List.append_assoc, List.singleton_append]

theorem fields_of_compile {declared : List FieldRule} {rules : List CompiledRule}
    (h : List.Forall₂ (fun r c => CompiledRule.compile r = .ok c) declared rules) :
    rules.map (·.field) = declared.map (·.field) := by
  have hmap : List.Forall₂ (· = ·) (declared.map (·.field)) (rules.map (·.field)) := by
    rw [List.forall₂_map_left_iff, List.forall₂_map_right_iff]
    exact h.imp fun r c hc => (congrArg FieldRule.field (CompiledRule.rule_of_compile hc)).symm
  exact (List.forall₂_eq_eq_eq ▸ hmap).symm

/-- Rules of distinct fields are compiled one by one. -/
theorem build_eq_ok_iff {declared : List FieldRule} (h : (declared.map (·.field)).Nodup) :
    build declared = .ok s ↔
      List.Forall₂ (fun r c => CompiledRule.compile r = .ok c) declared s.rules := by
  have hrules : ∀ {rules}, List.Forall₂ (fun r c => CompiledRule.compile r = .ok c) declared rules →
      (rules.foldl insert empty).rules = rules := fun hcompile =>
    rules_foldl_insert (s := empty) (by simpa [empty, fields_of_compile hcompile] using h)
  unfold build
  rw [map_eq_ok]
  constructor
  · rintro ⟨rules, hm, rfl⟩
    have hcompile := mapM_eq_ok_iff.mp hm
    rwa [hrules hcompile]
  · intro hcompile
    refine ⟨s.rules, mapM_eq_ok_iff.mpr hcompile, ?_⟩
    exact congrArg RuleSet.mk (hrules hcompile)

/-- The order of the declarations is that of the rules. -/
theorem exists_build_perm {declared declared' : List FieldRule} (hb : build declared = .ok s)
    (h : (declared.map (·.field)).Nodup) (hp : declared'.Perm declared) :
    ∃ s', build declared' = .ok s' ∧ s'.rules.Perm s.rules := by
  have h' : (declared'.map (·.field)).Nodup := (hp.map _).nodup_iff.mpr h
  obtain ⟨rules, hcompile, hrules⟩ := List.perm_comp_forall₂ hp ((build_eq_ok_iff h).mp hb)
  exact ⟨⟨rules⟩, (build_eq_ok_iff h').mpr hcompile, hrules⟩

end RuleSet

/-- The rules of a bean type are apart. -/
theorem BeanType.distinct_withRules {t : BeanType} {declared : List FieldRule}
    {nested : List (String × BeanType)} {s : RuleSet}
    (h : (t.withRules declared nested).rules = .ok s) : s.Distinct := by
  refine List.foldlRecOn (motive := fun rules => ∀ s, rules = Except.ok s → s.Distinct) nested _
    (fun s => RuleSet.distinct_build) (fun rules hrules n _ s hs => ?_) s h
  split at hs
  · cases hs
    exact RuleSet.distinct_nest (hrules _ rfl) _ _
  · cases hs
  · cases hs

end Formwork
