import Formwork.Proofs.Except
import Formwork.Proofs.Text.Blank
import Formwork.Property.Assign

/-!
# The numbers of an assigned value

An assignment of values that are not all blank leaves at most one number for each value that is not
blank (`length_numbers_assign`), so each number can be checked against a value of its own.
-/

namespace Formwork

/-- The values that are not blank. -/
def filledIn (values : List String) : List String := values.filter fun v => !Text.isBlank v

theorem filledIn_eq_nil {values : List String} (h : allBlank values = true) :
    filledIn values = [] := by
  rw [filledIn, List.filter_eq_nil_iff]
  intro v hv
  simp [List.all_eq_true.mp h v hv]

theorem length_filledIn_pos {values : List String} (h : allBlank values = false) :
    0 < (filledIn values).length := by
  obtain ⟨v, hv, hb⟩ := List.all_eq_false.mp h
  exact List.length_pos_of_mem (List.mem_filter.mpr ⟨hv, by simpa using hb⟩)

theorem isBlank_of_mem_filledIn {values : List String} {text : String}
    (h : text ∈ filledIn values) : Text.isBlank text = false := by
  simpa using (List.mem_filter.mp h).2

theorem allBlank_of_mem_filledIn {values : List String} {text : String}
    (h : text ∈ filledIn values) : allBlank [text] = false := by
  simp [allBlank, isBlank_of_mem_filledIn h]

theorem allBlank_of_filledIn_cons {values rest : List String} {text : String}
    (h : filledIn values = text :: rest) : allBlank values = false := by
  rw [Bool.eq_false_iff]
  intro hb
  cases h.symm.trans (filledIn_eq_nil hb)

/-- The first value that is not blank is the one that a scalar is assigned. -/
theorem find?_trim (values : List String) :
    ((values.map Text.trim).find? fun text => !text.isEmpty) =
      (filledIn values).head?.map Text.trim := by
  rw [List.find?_map, filledIn, List.head?_filter]
  congr 2
  funext text
  simp [Text.isEmpty_trim]

/-- A sequence of elements with an initial value is assigned element by element. -/
theorem BindContext.assignment_sequence_eq {cx : BindContext} {element : Schema} {fresh : Value}
    (h : cx.initial? element = some fresh) (values : List String) :
    cx.assignment (.sequence element) values =
      ((filledIn values).mapM fun text => cx.assignment element [text]).map
        (assignedItems element fresh) := by
  have hfilled : (values.filter fun v => !Text.isBlank v) = filledIn values := rfl
  rw [assignment, hfilled, h]
  cases filledIn values with
  | nil => rfl
  | cons text rest => rfl

namespace Value

theorem length_filterMap_number?_le (items : List Value) :
    (items.filterMap number?).length ≤ items.length := List.length_filterMap_le ..

end Value

/-- What is known about the numbers of an assignment to a property of a type: a new value has at
most one for each value that is not blank, and a value that is left as it is has at most one. What
failed says so. -/
def Assignment.FewNumbers (cx : BindContext) (s : Schema) (count : Nat) : Assignment → Prop
  | .replaced v => v.numbers.length ≤ count
  | .unchanged => (∀ v : Value, v.schema = s → v.numbers.length ≤ 1) ∧
      ∀ v, cx.initial? s = some v → v.numbers.length ≤ 1
  | .failed failures => failures ≠ []

namespace BindContext

variable {cx : BindContext}

theorem fewNumbers_scalar {t : ScalarType} {values : List String} {a : Assignment}
    (h : cx.assignScalar t values = .ok a) (hb : allBlank values = false) :
    a.FewNumbers cx (.scalar t) (filledIn values).length := by
  have hpos := length_filledIn_pos hb
  have hscalar : ∀ s : Scalar, (Value.scalar s).numbers.length ≤ 1 := fun s => by
    cases hs : s.number? <;> simp [Value.numbers, hs]
  have hsame : Assignment.unchanged.FewNumbers cx (.scalar t) (filledIn values).length := by
    refine ⟨fun v hv => ?_, fun v hv => ?_⟩
    · cases v with
      | scalar s => exact hscalar s
      | _ => cases hv
    · obtain ⟨s, -, rfl⟩ := Option.map_eq_some_iff.mp hv
      exact hscalar s
  unfold assignScalar at h
  split at h
  · cases h
    exact hsame
  · split at h
    · cases h
    · next s _ _ =>
      cases h
      exact Nat.le_trans (hscalar s) hpos
    · cases h
      exact hsame
    · next errors hne _ =>
      cases h
      exact fun he => hne (List.map_eq_nil_iff.mp he)

theorem fewNumbers_sequence {element : Schema} {fresh : Value} {parts : List Assignment}
    {count : Nat} (h : parts.length ≤ count) :
    (assignedItems element fresh parts).FewNumbers cx (.sequence element) count := by
  unfold assignedItems
  dsimp only
  split
  · exact Nat.le_trans (Value.length_filterMap_number?_le _)
      (Nat.le_trans (List.length_filterMap_le ..) h)
  · next hne =>
    show parts.flatMap Assignment.failures ≠ []
    intro he
    exact hne (List.isEmpty_iff.mpr he)

/-- An assignment leaves no more numbers than values that are not blank. -/
theorem fewNumbers_assignment {s : Schema} {values : List String} {a : Assignment}
    (h : cx.assignment s values = .ok a) (hb : allBlank values = false) :
    a.FewNumbers cx s (filledIn values).length := by
  have hpos := length_filledIn_pos hb
  induction s generalizing a values with
  | scalar t => exact fewNumbers_scalar h hb
  | option inner ih =>
    simp only [assignment, hb, Bool.false_eq_true, ↓reduceIte] at h
    cases hf : cx.initial? inner with
    | none =>
      rw [hf] at h
      cases h
    | some fresh =>
      simp only [hf] at h
      obtain ⟨b, ha, rfl⟩ := map_eq_ok.mp h
      have hfew := ih ha hb hpos
      cases b with
      | unchanged => exact Nat.le_trans (hfew.2 fresh hf) hpos
      | replaced v => exact hfew
      | failed l => exact hfew
  | box inner ih =>
    obtain ⟨b, ha, rfl⟩ := map_eq_ok.mp h
    have hfew := ih ha hb hpos
    cases b with
    | unchanged =>
      refine ⟨fun v hv => ?_, fun v hv => ?_⟩
      · cases v with
        | boxed v => exact hfew.1 v (Schema.box.inj hv)
        | _ => cases hv
      · obtain ⟨w, hw, rfl⟩ := Option.map_eq_some_iff.mp hv
        exact hfew.2 w hw
    | replaced v => exact hfew
    | failed l => exact hfew
  | sequence element ih =>
    simp only [assignment] at h
    split at h
    · cases h
      exact Nat.zero_le _
    · cases h
    · next submitted fresh _ hs _ =>
      obtain ⟨parts, hp, rfl⟩ := map_eq_ok.mp h
      exact fewNumbers_sequence (Nat.le_of_eq (length_of_mapM_eq_ok hp))
  | map kind element ih => cases h
  | bean name => cases h

end BindContext

/-- An assignment that succeeds leaves no more numbers than values that are not blank. -/
theorem Value.length_numbers_assign {cx : BindContext} {values : List String} {v w : Value}
    (h : v.assign cx values = .ok (w, [])) (hb : allBlank values = false) :
    w.numbers.length ≤ (filledIn values).length := by
  obtain ⟨a, ha, he⟩ := map_eq_ok.mp h
  have hfew := BindContext.fewNumbers_assignment ha hb
  have hpos := length_filledIn_pos hb
  cases a with
  | unchanged =>
    cases he
    exact Nat.le_trans (hfew.1 v rfl) hpos
  | replaced x =>
    cases he
    exact hfew
  | failed l =>
    cases he
    exact absurd rfl hfew

end Formwork
