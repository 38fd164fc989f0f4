import Formwork.NameMap
import Formwork.Validation.Rule

/-!
# Rules with an index

A `RuleIndex` keeps, beside the rules of a `RuleSet`, the place of the rule of each field, so that
no operation has to look for a rule.

* `RuleIndex.insert`: puts a rule in the place of that of its field, or behind the others.
* `RuleIndex.build`, `RuleIndex.nest`: make and extend an index as a set of rules is made.
* `RuleIndex.get?`: the rule of a field.
-/

namespace Formwork

/-- Rules with the place of each field's rule. -/
structure RuleIndex where
  rules : List CompiledRule
  places : NameMap Nat
  /-- The place of a field is the one at which the rule of the field stands. -/
  sound : ∀ field i, places.get? field = some i ↔ (rules.map (·.field))[i]? = some field

namespace RuleIndex

/-- No rules. -/
def empty : RuleIndex := ⟨[], .empty, by simp⟩

instance : Inhabited RuleIndex := ⟨empty⟩

theorem fields_set {t : RuleIndex} {c : CompiledRule} {i : Nat}
    (h : t.places.get? c.field = some i) :
    (t.rules.set i c).map (·.field) = t.rules.map (·.field) := by
  have hi := (t.sound c.field i).mp h
  rw [List.map_set]
  refine List.ext_getElem? fun j => ?_
  rw [List.getElem?_set]
  split
  · next he =>
    subst he
    have hlt := (List.getElem?_eq_some_iff.mp hi).1
    rw [if_pos hlt, hi]
  · rfl

theorem sound_concat {t : RuleIndex} {c : CompiledRule} (h : t.places.get? c.field = none)
    (field : String) (i : Nat) :
    (t.places.insert c.field t.rules.length).get? field = some i ↔
      ((t.rules ++ [c]).map (·.field))[i]? = some field := by
  have hlength : (t.rules.map (·.field)).length = t.rules.length := List.length_map _
  rw [NameMap.get?_insert, List.map_append, List.map_singleton, List.getElem?_append, hlength]
  by_cases hi : i < t.rules.length
  · rw [if_pos hi, ← t.sound]
    by_cases hf : c.field = field
    · subst hf
      rw [if_pos rfl, h]
      simp only [Option.some.injEq, reduceCtorEq, iff_false]
      omega
    · rw [if_neg hf]
  · have hnone : t.places.get? field ≠ some i := by
      rw [ne_eq, t.sound, List.getElem?_eq_none (by omega)]
      simp
    rw [if_neg hi, List.getElem?_singleton]
    by_cases hf : c.field = field
    · rw [if_pos hf, hf]
      simp only [Option.some.injEq, ite_eq_left_iff, reduceCtorEq, imp_false]
      omega
    · rw [if_neg hf]
      simp [hnone, hf]

/-- Puts a rule in the place of that of its field, or behind the others. -/
def insert (t : RuleIndex) (c : CompiledRule) : RuleIndex :=
  match h : t.places.get? c.field with
  | some i => ⟨t.rules.set i c, t.places, by rw [fields_set h]; exact t.sound⟩
  | none => ⟨t.rules ++ [c], t.places.insert c.field t.rules.length, sound_concat h⟩

/-- The index of declared rules; the first one that cannot be used stops it. -/
def build (declared : List FieldRule) : Except RuleError RuleIndex :=
  declared.foldlM (fun t r => (CompiledRule.compile r).map t.insert) empty

/-- Adds the rules of a nested bean below a property, where the fields have no rules yet. -/
def nest (t : RuleIndex) (outer : String) (nested : RuleIndex) : RuleIndex :=
  nested.rules.foldl (fun t c =>
    if t.places.contains (c.below outer).field then t else t.insert (c.below outer)) t

/-- The rule of a field. -/
def get? (t : RuleIndex) (field : String) : Option CompiledRule :=
  (t.places.get? field).bind (t.rules[·]?)

end RuleIndex

end Formwork
