import Formwork.Proofs.Property.Sequences

/-!
# Where stored values come from

A converter that has no errors for a text returns a value (`ConverterRegistry.Returns`), or keeps
silent (`ConverterRegistry.Silent`). Silence counts as success: the scalar that stood there, or the
initial one of a new option or element, is left as it is (`BindContext.Leaves`).

- **Containers** (`assign_option_eq_ok_iff`, `assign_boxed_eq_ok_iff`,
  `assign_sequence_eq_ok_iff`): what is stored in an option, a box or a sequence is what new values,
  or the content of the box, were assigned.
- **Scalars** (`assign_scalars_iff`): what a submission without failures stores.
-/

namespace Formwork

namespace ConverterRegistry

variable {r : ConverterRegistry} {t : ScalarType} {l : Locale} {text : String} {x : Scalar}
  {found : List FieldError}

/-- The converter of a type returns a value of this type for a text, and no errors. -/
def Returns (r : ConverterRegistry) (t : ScalarType) (l : Locale) (text : String) (x : Scalar) :
    Prop :=
  ∃ c converted, r.converter? t = some c ∧ c l text = { value := some converted } ∧
    converted.toScalar? t = some x

/-- The converter of a type has neither a value nor errors for a text. -/
def Silent (r : ConverterRegistry) (t : ScalarType) (l : Locale) (text : String) : Prop :=
  ∃ c, r.converter? t = some c ∧ c l text = {}

theorem convert_eq_some_iff :
    r.convert t l text [] = .ok (some x, found) ↔ r.Returns t l text x ∧ found = [] := by
  unfold convert Returns
  cases hc : r.converter? t with
  | none => simp
  | some c =>
    rcases ha : c l text with ⟨_ | converted, _ | ⟨e, errors⟩⟩
    · simp [ha]
    · simp [ha]
    · cases hs : converted.toScalar? t <;> simp [ha, hs, eq_comm]
    · simp [ha]

theorem convert_eq_none_iff : r.convert t l text [] = .ok (none, []) ↔ r.Silent t l text := by
  unfold convert Silent
  cases hc : r.converter? t with
  | none => simp
  | some c =>
    rcases ha : c l text with ⟨_ | converted, _ | ⟨e, errors⟩⟩
    · simp [ha]
    · simp [ha]
    · cases hs : converted.toScalar? t <;> simp [ha, hs, eq_comm]
    · simp [ha]

end ConverterRegistry

variable {cx : BindContext} {t : ScalarType} {inner element : Schema} {values rest : List String}
  {text : String} {v w : Value}

/-! ## Containers -/

/-- What is stored in an option is what a new value of its type was assigned. -/
theorem assign_option_eq_ok_iff
    (hs : ∀ fresh, cx.initial? inner = some fresh → fresh.schema = inner)
    (hv : v.schema = .option inner) (hb : allBlank values = false) :
    v.assign cx values = .ok (w, []) ↔ ∃ fresh, cx.initial? inner = some fresh ∧
      ∃ new, fresh.assign cx values = .ok (new, []) ∧ w = .present new := by
  rw [Value.assign, hv, BindContext.assignment, hb]
  simp only [Bool.false_eq_true, ↓reduceIte]
  cases hf : cx.initial? inner with
  | none => simp [Except.map]
  | some fresh =>
    have hfresh : fresh.assign cx values =
        (cx.assignment inner values).map (Assignment.result fresh) := by
      rw [Value.assign, hs fresh hf]
      rfl
    simp only [Option.some.injEq, exists_eq_left', hfresh]
    cases ha : cx.assignment inner values with
    | error e => simp [Except.map]
    | ok a =>
      have hwhy := saysWhy_assignment ha hb
      cases a with
      | unchanged | replaced =>
        simp [Except.map, Assignment.result, Assignment.apply, Assignment.failures, eq_comm]
      | failed l =>
        have hl : l ≠ [] := hwhy
        simp [Except.map, Assignment.result, Assignment.failures, hl]

theorem assign_boxed_eq_ok_iff :
    (Value.boxed v).assign cx values = .ok (w, []) ↔
      ∃ new, v.assign cx values = .ok (new, []) ∧ w = .boxed new := by
  rw [Value.assign, Value.schema, BindContext.assignment, Value.assign]
  rcases cx.assignment v.schema values with e | _ | _ | _ <;>
    simp [Except.map, Assignment.map, Assignment.apply, Assignment.failures, eq_comm, and_comm]

/-- What is stored in a sequence is what new elements were assigned, one for each text. -/
theorem assign_sequence_eq_ok_iff
    (hs : ∀ fresh, cx.initial? element = some fresh → fresh.schema = element)
    {items : List Value} : (Value.sequence element items).assign cx values = .ok (w, []) ↔
      ∃ news, w = .sequence element news ∧
        List.Forall₂ (fun text new => cx.assignNew element text = .ok (new, []))
          (filledIn values) news := by
  rw [assign_sequence_eq hs, map_eq_ok]
  constructor
  · rintro ⟨results, hresults, he⟩
    obtain ⟨hw, hnone⟩ := Prod.mk.inj he
    have hall : results = (results.map (·.1)).map (·, []) := by
      rw [List.map_map]
      exact (List.map_id results).symm.trans (List.map_congr_left fun r hr =>
        Prod.ext rfl (List.flatMap_eq_nil_iff.mp hnone r hr))
    refine ⟨results.map (·.1), hw.symm.trans (if_pos hnone), ?_⟩
    have hnews := mapM_eq_ok_iff.mp hresults
    rwa [hall, List.forall₂_map_right_iff] at hnews
  · rintro ⟨news, rfl, hnews⟩
    refine ⟨news.map (·, []), mapM_eq_ok_iff.mpr (List.forall₂_map_right_iff.mpr hnews), ?_⟩
    simp [Value.replacedBy, Function.comp_def]

/-! ## Scalars -/

/-- What a text leaves of a scalar, if it has no failures: what the converter returned, or the
scalar itself, if the converter kept silent. -/
def BindContext.Leaves (cx : BindContext) (t : ScalarType) (text : String) (old new : Scalar) :
    Prop :=
  cx.converters.Returns t cx.locale (Text.trim text) new ∨
    cx.converters.Silent t cx.locale (Text.trim text) ∧ new = old

/-- A scalar that is assigned a text without failures is left as this text leaves it. -/
theorem assign_scalar_eq_ok_iff (h : filledIn values = text :: rest) {old : Scalar} :
    (Value.scalar old).assign cx values = .ok (w, []) ↔
      ∃ new, w = .scalar new ∧ cx.Leaves old.type text old new := by
  rw [Value.assign, Value.schema, BindContext.assignment, BindContext.assignScalar, find?_trim, h]
  simp only [List.head?_cons, Option.map_some]
  have hreturns : ∀ new, cx.converters.Returns old.type cx.locale (Text.trim text) new ↔
      cx.converters.convert old.type cx.locale (Text.trim text) [] = .ok (some new, []) :=
    fun new => by simp [ConverterRegistry.convert_eq_some_iff]
  simp only [BindContext.Leaves, hreturns, ← ConverterRegistry.convert_eq_none_iff]
  rcases hr : cx.converters.convert old.type cx.locale (Text.trim text) [] with
    e | ⟨_ | x, _ | ⟨e, errors⟩⟩
  · simp [Except.map]
  · simp [Except.map, Assignment.apply, Assignment.failures, eq_comm]
  · simp [Except.map, Assignment.failures]
  · simp [Except.map, Assignment.apply, Assignment.failures, eq_comm]
  · -- A conversion that gives a value has no errors.
    cases (ConverterRegistry.convert_eq_some_iff.mp hr).2

/-- The initial value of a scalar type is a scalar of this type. -/
theorem initial?_scalar_eq_some_iff {fresh : Value} :
    cx.initial? (.scalar t) = some fresh ↔
      ∃ first, t.initial? = some first ∧ fresh = .scalar first := by
  rw [BindContext.initial?, Option.map_eq_some_iff]
  simp only [eq_comm]

/-- A new element of a scalar type is what its text leaves of the initial scalar. -/
theorem assignNew_scalar_eq_ok_iff {first : Scalar} (hf : t.initial? = some first)
    (ht : text ∈ filledIn values) : cx.assignNew (.scalar t) text = .ok (w, []) ↔
      ∃ new, w = .scalar new ∧ cx.Leaves t text first new := by
  have hfilled : filledIn [text] = [text] := List.filter_cons_of_pos (List.mem_filter.mp ht).2
  rw [BindContext.assignNew, BindContext.initial?, hf, ← ScalarType.type_of_initial? hf]
  exact assign_scalar_eq_ok_iff hfilled

/-- **Origin.** A submission with a value that is not blank is assigned without failures to a
scalar, to the content of a box, to an option or to a sequence exactly if the converter had no
errors for the first text that is not blank, or for each of them in a sequence. What is stored is
what it returned for the text; only where it kept silent it is the old scalar, or in an option and a
sequence the initial one of the type, which nobody submitted. -/
theorem assign_scalars_iff (cx : BindContext) (h : filledIn values = text :: rest)
    (t : ScalarType) (w : Value) :
    (∀ old : Scalar, old.type = t →
      ((Value.scalar old).assign cx values = .ok (w, []) ↔
        ∃ new, w = .scalar new ∧ cx.Leaves t text old new) ∧
      ((Value.boxed (.scalar old)).assign cx values = .ok (w, []) ↔
        ∃ new, w = .boxed (.scalar new) ∧ cx.Leaves t text old new)) ∧
    (∀ v : Value, v.schema = .option (.scalar t) →
      (v.assign cx values = .ok (w, []) ↔ ∃ first, t.initial? = some first ∧
        ∃ new, w = .present (.scalar new) ∧ cx.Leaves t text first new)) ∧
    ∀ items, (Value.sequence (.scalar t) items).assign cx values = .ok (w, []) ↔
      ∃ first, t.initial? = some first ∧ ∃ news, w = .sequence (.scalar t) (news.map .scalar) ∧
        List.Forall₂ (fun text new => cx.Leaves t text first new) (filledIn values) news := by
  have hs : ∀ fresh, cx.initial? (.scalar t) = some fresh → fresh.schema = .scalar t := by
    intro fresh hf
    obtain ⟨first, hfirst, rfl⟩ := initial?_scalar_eq_some_iff.mp hf
    exact congrArg Schema.scalar (ScalarType.type_of_initial? hfirst)
  refine ⟨fun old ht => ⟨?_, ?_⟩, fun v hv => ?_, fun items => ?_⟩
  · rw [assign_scalar_eq_ok_iff h, ht]
  · rw [assign_boxed_eq_ok_iff]
    simp only [assign_scalar_eq_ok_iff h, ht]
    grind
  · rw [assign_option_eq_ok_iff hs hv (allBlank_of_filledIn_cons h), BindContext.initial?]
    cases hf : t.initial? with
    | none => simp
    | some first =>
      have ht := ScalarType.type_of_initial? hf
      simp only [Option.map_some, Option.some.injEq, exists_eq_left', assign_scalar_eq_ok_iff h, ht]
      grind
  · rw [assign_sequence_eq_ok_iff hs]
    cases hf : t.initial? with
    | none =>
      have hnew : cx.assignNew (.scalar t) text = .error (.uninstantiable t.name) := by
        rw [BindContext.assignNew, BindContext.initial?, hf]
        rfl
      simp [h, hnew, List.forall₂_cons_left_iff]
    | some first =>
      have hnew : ∀ text ∈ filledIn values, ∀ u,
          cx.assignNew (.scalar t) text = .ok (u, []) ↔
            ∃ new, u = .scalar new ∧ cx.Leaves t text first new :=
        fun _ ht _ => assignNew_scalar_eq_ok_iff hf ht
      simp only [forall₂_map_iff_exists hnew, Option.some.injEq, exists_eq_left']
      grind

/-- The converter of bytes keeps silent about an age. It counts as submitted, and what is stored is
no age that the converter returned. -/
theorem assign_scalars_iff_age :
    (Value.absent (Fields.integer .nat8)).assign (Sample.bindContext Sample.converters .us) ["42"] =
      .ok (.present (.scalar (.integer .nat8 0)), []) ∧
    ∀ x, ¬ Sample.converters.Returns (.integer .nat8) .us "42" x := by
  have hfilled : filledIn ["42"] = ["42"] := by decide +kernel
  have hsilent : Sample.converters.Silent (.integer .nat8) .us (Text.trim "42") := ⟨_, rfl, rfl⟩
  constructor
  · obtain ⟨-, hoption, -⟩ := assign_scalars_iff (Sample.bindContext Sample.converters .us) hfilled
      (.integer .nat8) (.present (.scalar (.integer .nat8 0)))
    exact (hoption _ rfl).mpr ⟨_, rfl, _, rfl, .inr ⟨hsilent, rfl⟩⟩
  · rintro x ⟨c, converted, hc, hvalue, -⟩
    cases hc
    cases hvalue

end Formwork
