import Formwork.Proofs.FirstUse
import Formwork.Proofs.NameMap
import Formwork.Proofs.Validation.RuleSets
import Formwork.Validation.RuleIndex

/-!
# Which rule a field has

Of the declarations of a field the last one counts, and a rule that is there comes before that of a
nested bean.

- **Declared rules** (`RuleSet.fields_build`, `RuleSet.mem_build`): a set lists the fields in the
  order in which they were declared first, each with its last declaration.
- **Nested rules** (`RuleSet.rules_nest`): the rules of a nested bean whose fields are new stand
  behind all that are there, as they are but for the field.
- **Indexes** (`RuleIndex.set_build`, `RuleIndex.set_nest`, `RuleIndex.get?_eq_some_iff`): a set with
  an index has the same rules as one without, and finds the same ones.
- **Precedence** (`RuleIndex.precedence`): so it is with every sequence of nested beans.
-/

namespace Formwork

namespace RuleSet

variable {s : RuleSet} {declared : List FieldRule}

/-! ## Declared rules -/

theorem fields_foldl_insert (rules : List CompiledRule) :
    (rules.foldl insert empty).rules.map (·.field) = (rules.map (·.field)).eraseDups := by
  induction rules using List.reverseRecOn with
  | nil => rfl
  | append_singleton rules c ih =>
    rw [List.foldl_concat, fields_insert, List.map_append, List.map_singleton]
    by_cases hc : c.field ∈ rules.map (·.field)
    · rw [eraseDups_concat_of_mem hc, if_pos, ih]
      rwa [contains_eq_true_iff, ih, List.mem_eraseDups]
    · rw [eraseDups_concat_of_not_mem hc, if_neg, ih]
      rwa [contains_eq_true_iff, ih, List.mem_eraseDups]

/-- What stays of rules that are put in is the last one of each field. -/
theorem mem_foldl_insert {rules : List CompiledRule} {c : CompiledRule} :
    c ∈ (rules.foldl insert empty).rules ↔
      ∃ front back, rules = front ++ c :: back ∧ ∀ d ∈ back, d.field ≠ c.field := by
  induction rules using List.reverseRecOn with
  | nil => simp [empty]
  | append_singleton rules e ih =>
    rw [List.foldl_concat, mem_insert, ih]
    constructor
    · rintro (rfl | ⟨⟨front, back, rfl, hback⟩, hne⟩)
      · exact ⟨rules, [], rfl, by simp⟩
      · refine ⟨front, back ++ [e], by simp, fun d hd => ?_⟩
        rcases List.mem_append.mp hd with hd | hd
        · exact hback d hd
        · exact List.mem_singleton.mp hd ▸ hne.symm
    · rintro ⟨front, back, hsplit, hback⟩
      cases back using List.reverseRecOn with
      | nil => exact .inl (by simpa using (List.append_inj_right' hsplit rfl).symm)
      | append_singleton back e' =>
        rw [← List.cons_append, ← List.append_assoc] at hsplit
        obtain ⟨rfl, he⟩ := List.append_inj' hsplit rfl
        obtain rfl : e = e' := List.singleton_inj.mp he
        exact .inr ⟨⟨front, back, rfl, fun d hd => hback d (List.mem_append_left _ hd)⟩,
          (hback e (List.mem_append_right _ (List.mem_singleton_self e))).symm⟩

/-- Declared rules list the fields in the order of their first declarations. -/
theorem fields_build (h : build declared = .ok s) :
    s.rules.map (·.field) = (declared.map (·.field)).eraseDups := by
  obtain ⟨rules, hm, rfl⟩ := map_eq_ok.mp h
  rw [fields_foldl_insert, fields_of_compile (mapM_eq_ok_iff.mp hm)]

/-- The rule of a field is its last declaration. -/
theorem mem_build (h : build declared = .ok s) {c : CompiledRule} (hc : c ∈ s.rules) :
    ∃ front r back, declared = front ++ r :: back ∧ CompiledRule.compile r = .ok c ∧
      ∀ d ∈ back, d.field ≠ c.field := by
  obtain ⟨rules, hm, rfl⟩ := map_eq_ok.mp h
  obtain ⟨before, after, rfl, hafter⟩ := mem_foldl_insert.mp hc
  have hcompile := List.forall₂_drop_append declared before _ (mapM_eq_ok_iff.mp hm)
  obtain ⟨r, back, hr, hback, hdrop⟩ := List.forall₂_cons_right_iff.mp hcompile
  refine ⟨declared.take before.length, r, back, ?_, hr, fun d hd hf => ?_⟩
  · rw [← hdrop, List.take_append_drop]
  · have hd' : d.field ∈ after.map (·.field) := by
      rw [fields_of_compile hback]
      exact List.mem_map_of_mem hd
    obtain ⟨e, he, hef⟩ := List.mem_map.mp hd'
    exact hafter e he (hef.trans hf)

/-! ## Nested rules -/

theorem foldl_insert_new {l : List CompiledRule} (h : (l.map (·.field)).Nodup) :
    (l.foldl (fun s c => if s.contains c.field then s else s.insert c) s).rules =
      s.rules ++ l.filter (!s.contains ·.field) := by
  induction l generalizing s with
  | nil => exact (List.append_nil _).symm
  | cons c rest ih =>
    obtain ⟨hnew, hrest⟩ := List.nodup_cons.mp h
    rw [List.foldl_cons, ih hrest]
    cases hc : s.contains c.field with
    | true => rw [if_pos rfl, List.filter_cons_of_neg (by simp [hc])]
    | false =>
      have hinsert : s.insert c = ⟨s.rules ++ [c]⟩ := by rw [insert, if_neg (by simp [hc])]
      -- The fields behind the rule differ from its field, so they are as new as before.
      have hsame : rest.filter (!(s.insert c).contains ·.field) =
          rest.filter (!s.contains ·.field) := by
        refine List.filter_congr fun d hd => ?_
        have hne : ¬ c.field = d.field := fun he => hnew (List.mem_map.mpr ⟨d, hd, he.symm⟩)
        rw [hinsert]
        simp [contains, hne]
      rw [if_neg Bool.false_ne_true, hsame, List.filter_cons_of_pos (by simp [hc]), hinsert,
        List.append_assoc, List.singleton_append]

theorem nodup_fields_below {l : List CompiledRule} (h : (l.map (·.field)).Nodup) (outer : String) :
    ((l.map (·.below outer)).map (·.field)).Nodup := by
  have hfields : (l.map (·.below outer)).map (·.field) =
      (l.map (·.field)).map (outer ++ "." ++ ·) := by
    rw [List.map_map, List.map_map]
    rfl
  rw [hfields]
  exact h.map fun a b hab => by simpa [← String.toList_inj] using hab

/-- The nested rules of new fields stand behind those that are there. -/
theorem rules_nest {nested : RuleSet} (h : nested.Distinct) (s : RuleSet) (outer : String) :
    (s.nest outer nested).rules =
      s.rules ++ (nested.rules.map (·.below outer)).filter (!s.contains ·.field) := by
  rw [← foldl_insert_new (nodup_fields_below h outer), List.foldl_map]
  rfl

end RuleSet

namespace RuleIndex

variable {t : RuleIndex} {declared : List FieldRule}

/-! ## Indexes -/

/-- The set of the rules. -/
def set (t : RuleIndex) : RuleSet := ⟨t.rules⟩

theorem distinct_set (t : RuleIndex) : t.set.Distinct := by
  refine List.nodup_iff_getElem?_ne_getElem?.mpr fun i j hij hj he => ?_
  have hfield : ∃ field, (t.rules.map (·.field))[j]? = some field :=
    ⟨_, List.getElem?_eq_getElem hj⟩
  obtain ⟨field, hfield⟩ := hfield
  have hi := (t.sound field i).mpr (he.trans hfield)
  have hj := (t.sound field j).mpr hfield
  rw [hi] at hj
  exact absurd (Option.some.inj hj) (Nat.ne_of_lt hij)

theorem get?_eq_some_iff {field : String} {c : CompiledRule} :
    t.get? field = some c ↔ c ∈ t.rules ∧ c.field = field := by
  rw [get?, Option.bind_eq_some_iff]
  constructor
  · rintro ⟨i, hi, hc⟩
    rw [t.sound, List.getElem?_map, hc] at hi
    exact ⟨List.mem_of_getElem? hc, Option.some.inj hi⟩
  · rintro ⟨hc, rfl⟩
    obtain ⟨i, hi⟩ := List.getElem?_of_mem hc
    exact ⟨i, by rw [t.sound, List.getElem?_map, hi]; rfl, hi⟩

theorem get?_set (field : String) : t.set.get? field = t.get? field := by
  refine Option.ext fun c => ?_
  rw [get?_eq_some_iff, RuleSet.get?]
  exact find?_key_eq_some_iff t.distinct_set

theorem contains_places (field : String) : t.places.contains field = t.set.contains field := by
  rw [Bool.eq_iff_iff, RuleSet.contains_eq_true_iff, NameMap.contains, Option.isSome_iff_exists,
    List.mem_iff_getElem?]
  exact exists_congr (t.sound field)

/-- Putting a rule in the place of its field changes the rule of this field only. -/
theorem set_rules {c : CompiledRule} {i : Nat} (h : t.places.get? c.field = some i) :
    t.rules.set i c = t.rules.map fun d => if d.field == c.field then c else d := by
  refine List.ext_getElem? fun j => ?_
  have hplace (d : CompiledRule) (hd : t.rules[j]? = some d) : d.field = c.field ↔ i = j := by
    have hj : t.places.get? d.field = some j := by rw [t.sound, List.getElem?_map, hd]; rfl
    constructor
    · intro he
      rw [he, h] at hj
      exact Option.some.inj hj
    · rintro rfl
      rw [t.sound, List.getElem?_map, hd] at h
      exact Option.some.inj h
  rw [List.getElem?_map, List.getElem?_set]
  cases hd : t.rules[j]? with
  | none =>
    have hlen : t.rules.length ≤ j := List.getElem?_eq_none_iff.mp hd
    simp
    omega
  | some d =>
    have hlen := (List.getElem?_eq_some_iff.mp hd).1
    by_cases hij : i = j
    · have hf := (hplace d hd).mpr hij
      subst hij
      simp [hf, hlen]
    · have hf : ¬ d.field = c.field := fun he => hij ((hplace d hd).mp he)
      simp [hij, hf]

theorem set_insert (t : RuleIndex) (c : CompiledRule) : (t.insert c).set = t.set.insert c := by
  have hcontains := t.contains_places c.field
  rw [NameMap.contains] at hcontains
  unfold insert
  split
  · next i hi =>
    rw [hi, Option.isSome_some] at hcontains
    rw [RuleSet.insert, if_pos hcontains.symm]
    exact congrArg RuleSet.mk (set_rules hi)
  · next hi =>
    rw [hi, Option.isSome_none] at hcontains
    rw [RuleSet.insert, if_neg (by simp [← hcontains])]
    rfl

theorem set_build (declared : List FieldRule) :
    (build declared).map set = RuleSet.build declared := by
  have hfold (rules : List CompiledRule) :
      (rules.foldl insert empty).set = rules.foldl RuleSet.insert .empty :=
    (List.foldl_hom set fun t c => (t.set_insert c).symm).symm
  rw [build, foldlM_map_eq, RuleSet.build]
  cases declared.mapM CompiledRule.compile with
  | error e => rfl
  | ok rules => exact congrArg Except.ok (hfold rules)

theorem set_nest (t : RuleIndex) (outer : String) (nested : RuleIndex) :
    (t.nest outer nested).set = t.set.nest outer nested.set := by
  unfold nest RuleSet.nest
  refine (List.foldl_hom set fun t c => ?_).symm
  rw [contains_places]
  split
  · rfl
  · exact (t.set_insert _).symm

/-! ## Precedence -/

/-- Adds the rules of nested beans one after the other. -/
def nestAll (t : RuleIndex) (nests : List (String × RuleIndex)) : RuleIndex :=
  nests.foldl (fun t n => t.nest n.1 n.2) t

theorem set_nestAll (t : RuleIndex) (nests : List (String × RuleIndex)) :
    (t.nestAll nests).set = nests.foldl (fun s n => s.nest n.1 n.2.set) t.set :=
  (List.foldl_hom set fun t n => (t.set_nest n.1 n.2).symm).symm

theorem rules_nest (t : RuleIndex) (outer : String) (nested : RuleIndex) :
    (t.nest outer nested).rules =
      t.rules ++ (nested.rules.map (·.below outer)).filter (!t.set.contains ·.field) := by
  have hset := congrArg RuleSet.rules (t.set_nest outer nested)
  exact hset.trans (RuleSet.rules_nest nested.distinct_set t.set outer)

theorem mem_fields_nest {t nested : RuleIndex} {outer field : String} :
    field ∈ (t.nest outer nested).rules.map (·.field) ↔
      field ∈ t.rules.map (·.field) ∨
        ∃ c ∈ nested.rules, field = outer ++ "." ++ c.field := by
  rw [rules_nest, List.map_append, List.mem_append]
  constructor
  · rintro (hold | hnew)
    · exact .inl hold
    · obtain ⟨d, hd, rfl⟩ := List.mem_map.mp hnew
      obtain ⟨c, hc, rfl⟩ := List.mem_map.mp (List.mem_filter.mp hd).1
      exact .inr ⟨c, hc, rfl⟩
  · rintro (hold | ⟨c, hc, rfl⟩)
    · exact .inl hold
    · refine or_iff_not_imp_left.mpr fun hnew => ?_
      have hfresh : (!t.set.contains (c.below outer).field) = true := by
        rw [Bool.not_eq_true', ← Bool.not_eq_true, RuleSet.contains_eq_true_iff]
        exact hnew
      exact List.mem_map.mpr
        ⟨c.below outer, List.mem_filter.mpr ⟨List.mem_map_of_mem hc, hfresh⟩, rfl⟩

theorem mem_fields_nestAll {t : RuleIndex} {nests : List (String × RuleIndex)} {field : String} :
    field ∈ (t.nestAll nests).rules.map (·.field) ↔
      field ∈ t.rules.map (·.field) ∨
        ∃ n ∈ nests, ∃ c ∈ n.2.rules, field = n.1 ++ "." ++ c.field := by
  induction nests generalizing t with
  | nil => simp [nestAll]
  | cons n nests ih =>
    rw [nestAll, List.foldl_cons, ← nestAll, ih, mem_fields_nest, List.exists_mem_cons_iff, or_assoc]

/-- Declared rules with nested ones: of the declarations of a field the last one counts, where the
field was declared first; the rules of nested beans come behind all others, and only those of fields
without a rule. Each field has one rule, which is what is found under it. -/
theorem precedence {declared : List FieldRule}
    (h : ∀ r ∈ declared, ∃ c, CompiledRule.compile r = .ok c) :
    ∃ built, build declared = .ok built ∧ RuleSet.build declared = .ok built.set ∧
      built.rules.map (·.field) = (declared.map (·.field)).eraseDups ∧
      (∀ c ∈ built.rules, ∃ front r back, declared = front ++ r :: back ∧
        CompiledRule.compile r = .ok c ∧ c.rule = r ∧ ∀ d ∈ back, d.field ≠ r.field) ∧
      ∀ nests : List (String × RuleIndex),
        (built.nestAll nests).set = nests.foldl (fun s n => s.nest n.1 n.2.set) built.set ∧
        ((built.nestAll nests).rules.map (·.field)).Nodup ∧
        (∀ field, field ∈ (built.nestAll nests).rules.map (·.field) ↔
          field ∈ declared.map (·.field) ∨
            ∃ n ∈ nests, ∃ c ∈ n.2.rules, field = n.1 ++ "." ++ c.field) ∧
        (∀ field c, (built.nestAll nests).get? field = some c ↔
          c ∈ (built.nestAll nests).rules ∧ c.field = field) ∧
        (∀ field, (built.nestAll nests).set.get? field = (built.nestAll nests).get? field) ∧
        ∀ outer (nested : RuleIndex),
          (built.nestAll (nests ++ [(outer, nested)])).rules =
            (built.nestAll nests).rules ++
              (nested.rules.map fun c =>
                ⟨{ c.rule with field := outer ++ "." ++ c.rule.field }, c.pattern⟩).filter
                  fun c => c.field ∉ (built.nestAll nests).rules.map (·.field) := by
  obtain ⟨rules, hm⟩ := exists_mapM_eq_ok h
  have hset : RuleSet.build declared = .ok (rules.foldl RuleSet.insert .empty) := by
    rw [RuleSet.build, hm]
    rfl
  obtain ⟨built, hbuilt, hrules⟩ := map_eq_ok.mp ((set_build declared).trans hset)
  rw [← hrules] at hset
  have hfields := RuleSet.fields_build hset
  refine ⟨built, hbuilt, hset, hfields, fun c hc => ?_, fun nests => ⟨built.set_nestAll nests,
    distinct_set _, fun field => ?_, fun field c => get?_eq_some_iff, get?_set,
    fun outer nested => ?_⟩⟩
  · obtain ⟨front, r, back, hsplit, hcompile, hback⟩ := RuleSet.mem_build hset hc
    have hrule := CompiledRule.rule_of_compile hcompile
    exact ⟨front, r, back, hsplit, hcompile, hrule, hrule ▸ hback⟩
  · rw [mem_fields_nestAll]
    refine or_congr_left ?_
    rw [← List.mem_eraseDups (l := declared.map (·.field)), ← hfields]
    rfl
  · have hlast : built.nestAll (nests ++ [(outer, nested)]) =
        (built.nestAll nests).nest outer nested := List.foldl_concat _ _ _ _
    rw [hlast, rules_nest]
    refine congrArg _ (List.filter_congr fun c _ => ?_)
    rw [Bool.eq_iff_iff, Bool.not_eq_true', ← Bool.not_eq_true, RuleSet.contains_eq_true_iff,
      decide_eq_true_iff]
    rfl

/-- The rules of a form for an account, with its own rule for the password of the user. -/
def accountRules : List FieldRule :=
  [{ field := "user.password", minLength := some 10 }, { field := "terms", required := true },
    { field := "user.password", minLength := some 12, pattern := some "[a-z0-9]+" }]

/-- The rules of a user. -/
def userRules : RuleIndex :=
  [{ field := "name", required := true }, { field := "password", minLength := some 8 }].foldl
    (fun t r => t.insert ⟨r, none⟩) empty

theorem precedence_account :
    (∀ r ∈ accountRules, ∃ c, CompiledRule.compile r = .ok c) ∧
    ∃ built, build accountRules = .ok built ∧
      built.rules.map (·.field) = ["user.password", "terms"] ∧
      (built.nestAll [("user", userRules)]).rules.map (·.field) =
        ["user.password", "terms", "user.name"] ∧
      ∃ c, (built.nestAll [("user", userRules)]).get? "user.password" = some c ∧
        c.rule.minLength = some 12 := by
  have h : ∀ r ∈ accountRules, ∃ c, CompiledRule.compile r = .ok c := by
    simp only [accountRules, List.forall_mem_cons, List.not_mem_nil, false_imp_iff, forall_true_iff]
    exact ⟨⟨_, rfl⟩, ⟨_, rfl⟩, ⟨_, rfl⟩, trivial⟩
  refine ⟨h, ?_⟩
  obtain ⟨built, hb, -, hfields, hlast, hnest⟩ := precedence h
  have hbuilt : built.rules.map (·.field) = ["user.password", "terms"] := hfields.trans (by decide)
  have hrules := (hnest []).2.2.2.2.2 "user" userRules
  have hget := (hnest [("user", userRules)]).2.2.2.1 "user.password"
  have hold : built.nestAll [] = built := rfl
  rw [hold, hbuilt, List.nil_append] at hrules
  refine ⟨built, hb, hbuilt, ?_, ?_⟩
  · rw [hrules, List.map_append, hbuilt]
    decide
  · obtain ⟨c, hc, hf⟩ := List.mem_map.mp (hbuilt ▸ List.mem_cons_self)
    refine ⟨c, (hget c).mpr ⟨hrules ▸ List.mem_append_left _ hc, hf⟩, ?_⟩
    obtain ⟨front, r, back, hsplit, -, rfl, hback⟩ := hlast c hc
    -- The rule is none of the declarations but the last one.
    match front with
    | [] =>
      obtain ⟨-, rfl⟩ := List.cons.inj hsplit
      exact absurd hf.symm (hback _ (List.mem_cons_of_mem _ List.mem_cons_self))
    | [_] =>
      have hr : c.field = "terms" :=
        congrArg FieldRule.field (List.cons.inj (List.cons.inj hsplit).2).1.symm
      exact absurd (hf.symm.trans hr) (by decide)
    | [_, _] =>
      have hr := (List.cons.inj (List.cons.inj (List.cons.inj hsplit).2).2).1
      rw [← hr]
    | _ :: _ :: _ :: front => simp [accountRules] at hsplit

end RuleIndex

end Formwork
