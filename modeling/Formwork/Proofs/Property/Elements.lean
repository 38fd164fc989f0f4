import Formwork.Proofs.Property.Numbers
import Formwork.Proofs.Text.Blank

/-!
# The elements of an assigned sequence

A sequence of numbers, itself or its elements maybe in options and boxes (`Schema.Wraps`), is
assigned the values that are not blank, each as an element of its own. If all of them can be
converted, then the numbers of the sequence are what they were converted to, in the same order
(`assignment_numbers`).
-/

namespace Formwork

/-! ## Numbers -/

/-- The types of numbers. -/
def ScalarType.isNumber : ScalarType → Bool
  | .integer _ | .single | .double | .bigInteger | .decimal => true
  | .bool | .date | .text | .character | .enumeration _ | .foreign _ => false

theorem ScalarType.isSome_initial? {t : ScalarType} (h : t.isNumber = true) :
    t.initial?.isSome = true := by
  cases t <;> first | rfl | cases h

theorem Scalar.isSome_number? (x : Scalar) : x.number?.isSome = x.type.isNumber := by
  cases x <;> rfl

namespace ConverterRegistry

variable {r : ConverterRegistry} {t : ScalarType} {l : Locale} {text : String} {x : Scalar}

/-- What a text is converted to is of the type that was asked for. -/
theorem type_of_convert {errors found : List FieldError}
    (h : r.convert t l text errors = .ok (some x, found)) : x.type = t := by
  have htype : ∀ {c : Converted}, c.toScalar? t = some x → x.type = t := by
    intro c hc
    cases c with
    | scalar y =>
      obtain ⟨hy, he⟩ := Option.ite_none_right_eq_some.mp hc
      cases he
      exact hy
    | ordinal n =>
      cases t with
      | enumeration e =>
        obtain ⟨-, he⟩ := Option.ite_none_right_eq_some.mp hc
        cases he
        rfl
      | _ => cases hc
  unfold convert at h
  split at h
  · cases h
  · dsimp only at h
    split at h
    · cases h
    · split at h
      · cases h
      · split at h
        · next c _ y hy =>
          cases h
          exact htype hy
        · cases h

/-- A text is converted to a number without an error. -/
def Reads (r : ConverterRegistry) (t : ScalarType) (l : Locale) (text : String) (n : Float) :
    Prop :=
  ∃ x, r.convert t l text [] = .ok (some x, []) ∧ x.number? = some n

theorem exists_reads (ht : t.isNumber = true) (h : r.convert t l text [] = .ok (some x, [])) :
    ∃ n, r.Reads t l text n := by
  have hnumber : x.number?.isSome = true := by
    rw [Scalar.isSome_number?, type_of_convert h, ht]
  obtain ⟨n, hn⟩ := Option.isSome_iff_exists.mp hnumber
  exact ⟨n, x, h, hn⟩

end ConverterRegistry

/-! ## Options and boxes -/

/-- A type is another one, maybe in options and boxes. -/
inductive Schema.Wraps : Schema → Schema → Prop
  | self (s : Schema) : Wraps s s
  | option {s inner : Schema} (h : Wraps s inner) : Wraps (.option s) inner
  | box {s inner : Schema} (h : Wraps s inner) : Wraps (.box s) inner

namespace BindContext

variable {cx : BindContext} {s inner element : Schema} {t : ScalarType} {values : List String}

theorem isSome_initial?_of_wraps (h : s.Wraps inner) (hi : (cx.initial? inner).isSome = true) :
    (cx.initial? s).isSome = true := by
  induction h with
  | self => exact hi
  | option => rfl
  | box h ih =>
    rw [initial?, Option.isSome_map]
    exact ih hi

theorem isSome_initial?_scalar (ht : t.isNumber = true) :
    (cx.initial? (.scalar t)).isSome = true := by
  rw [initial?, Option.isSome_map, ScalarType.isSome_initial? ht]

/-- What is assigned in options and boxes has the numbers of what is assigned without them. -/
theorem assignment_of_wraps (h : s.Wraps inner) (hi : (cx.initial? inner).isSome = true)
    {v : Value} (ha : cx.assignment inner values = .ok (.replaced v))
    (hb : allBlank values = true → v.numbers = []) :
    ∃ w, cx.assignment s values = .ok (.replaced w) ∧ w.numbers = v.numbers ∧
      (allBlank values = false → w.number? = v.number?) := by
  induction h with
  | self => exact ⟨v, ha, rfl, fun _ => rfl⟩
  | @option s inner h ih =>
    cases hblank : allBlank values with
    | true =>
      -- The option becomes absent, whatever the type in it makes of blank values.
      refine ⟨.absent s, ?_, (hb hblank).symm, nofun⟩
      rw [assignment, if_pos hblank]
    | false =>
      obtain ⟨w, hw, hnumbers, hnumber⟩ := ih hi ha
      obtain ⟨fresh, hfresh⟩ := Option.isSome_iff_exists.mp (isSome_initial?_of_wraps h hi)
      refine ⟨.present w, ?_, hnumbers, fun _ => hnumber hblank⟩
      simp [assignment, hblank, hfresh, hw, Except.map]
  | box h ih =>
    obtain ⟨w, hw, hnumbers, hnumber⟩ := ih hi ha
    refine ⟨.boxed w, ?_, hnumbers, hnumber⟩
    rw [assignment, hw]
    rfl

/-! ## Elements -/

/-- A text that is converted to a number becomes an element with that number. -/
theorem assignment_element (he : element.Wraps (.scalar t)) (ht : t.isNumber = true)
    {text : String} (hb : Text.isBlank text = false) {n : Float}
    (hr : cx.converters.Reads t cx.locale (Text.trim text) n) :
    ∃ w, cx.assignment element [text] = .ok (.replaced w) ∧ w.number? = some n := by
  obtain ⟨x, hx, hn⟩ := hr
  have hblank : allBlank [text] = false := by simpa [allBlank] using hb
  have hscalar : cx.assignment (.scalar t) [text] = .ok (.replaced (.scalar x)) := by
    have hfind : [Text.trim text].find? (fun v => !v.isEmpty) = some (Text.trim text) :=
      List.find?_cons_of_pos (by rw [Text.isEmpty_trim, hb, Bool.not_false])
    rw [assignment, assignScalar, List.map_singleton, hfind]
    simp only [hx]
  obtain ⟨w, hw, -, hnumber⟩ := assignment_of_wraps he (isSome_initial?_scalar ht) hscalar
    fun hf => Bool.noConfusion (hblank.symm.trans hf)
  exact ⟨w, hw, (hnumber hblank).trans hn⟩

/-- Texts that are converted to numbers become elements with those numbers. -/
theorem exists_elements (he : element.Wraps (.scalar t)) (ht : t.isNumber = true)
    {texts : List String} {numbers : List Float}
    (hr : List.Forall₂ (fun text n => Text.isBlank text = false ∧
      cx.converters.Reads t cx.locale (Text.trim text) n) texts numbers) :
    ∃ items : List Value, (texts.mapM fun text => cx.assignment element [text]) =
        .ok (items.map .replaced) ∧ items.filterMap Value.number? = numbers := by
  induction hr with
  | nil => exact ⟨[], rfl, rfl⟩
  | @cons text n texts numbers h _ ih =>
    obtain ⟨w, hw, hn⟩ := assignment_element he ht h.1 h.2
    obtain ⟨items, hitems, hnumbers⟩ := ih
    refine ⟨w :: items, ?_, ?_⟩
    · rw [List.mapM_cons, hw, hitems]
      rfl
    · rw [List.filterMap_cons_some hn, hnumbers]

/-- New elements make a new sequence. -/
theorem assignedItems_replaced (fresh : Value) (items : List Value) :
    assignedItems element fresh (items.map .replaced) = .replaced (.sequence element items) := by
  have hfailures : (items.map Assignment.replaced).flatMap Assignment.failures = [] := by
    simp [List.flatMap_map, Assignment.failures]
  have hvalues : (items.map Assignment.replaced).filterMap (Assignment.from? fresh) = items := by
    rw [List.filterMap_map]
    exact List.filterMap_some
  rw [assignedItems, hfailures, hvalues]
  rfl

/-- A sequence becomes the one of the elements of its values that are not blank. -/
theorem assignment_sequence (he : element.Wraps (.scalar t)) (ht : t.isNumber = true)
    {numbers : List Float}
    (hr : List.Forall₂ (cx.converters.Reads t cx.locale) ((filledIn values).map Text.trim)
      numbers) :
    ∃ items, cx.assignment (.sequence element) values =
        .ok (.replaced (.sequence element items)) ∧
      (Value.sequence element items).numbers = numbers := by
  obtain ⟨fresh, hfresh⟩ :=
    Option.isSome_iff_exists.mp (isSome_initial?_of_wraps he (isSome_initial?_scalar ht))
  obtain ⟨items, hitems, hnumbers⟩ := exists_elements he ht ((List.forall₂_and_left ..).mpr
    ⟨fun _ h => isBlank_of_mem_filledIn h, List.forall₂_map_left_iff.mp hr⟩)
  refine ⟨items, ?_, hnumbers⟩
  rw [assignment_sequence_eq hfresh, hitems, Except.map, assignedItems_replaced]

/-- The numbers of a sequence are what its texts are converted to. -/
theorem assignment_numbers (hs : s.Wraps (.sequence element)) (he : element.Wraps (.scalar t))
    (ht : t.isNumber = true) {numbers : List Float}
    (hr : List.Forall₂ (cx.converters.Reads t cx.locale) ((filledIn values).map Text.trim)
      numbers) :
    ∃ w, cx.assignment s values = .ok (.replaced w) ∧ w.numbers = numbers := by
  obtain ⟨items, hitems, hnumbers⟩ := assignment_sequence he ht hr
  have hnone : allBlank values = true → (Value.sequence element items).numbers = [] := by
    intro hblank
    rw [filledIn_eq_nil hblank, List.map_nil, List.forall₂_nil_left_iff] at hr
    rw [hnumbers, hr]
  obtain ⟨w, hw, hsame, -⟩ := assignment_of_wraps hs rfl hitems hnone
  exact ⟨w, hw, hsame.trans hnumbers⟩

end BindContext

end Formwork
