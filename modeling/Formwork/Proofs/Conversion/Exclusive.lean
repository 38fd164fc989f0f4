import Formwork.Proofs.Property.Elements
import Formwork.Proofs.Conversion.BuiltIn
import Formwork.Sample.Converters

/-!
# A value or errors

A converter may be one that is handed the errors found so far and appends to them (`Reporter`). What
it does at one list of errors is a `Converter`, so that a conversion which looks at the length of
the list (`Reporters.convert`) comes to `ConverterRegistry.convert` (`Reporters.convert_eq`).

- **Conclusions** (`concludes_convert`): what a conversion makes of the answer of a converter. A
  value that comes with errors is dropped.
- **Decisions** (`decided_builtIn`): a built-in converter gives a value or one error of a conversion
  for every text that is not empty.
- **A value or errors** (`convert_value_or_errors`): the two of them, for converters of both kinds.
-/

namespace Formwork

variable {t : ScalarType} {l : Locale} {text : String} {errors : List FieldError}

/-! ## Conclusions -/

/-- What a conversion makes of the answer of a converter, with the errors found so far. -/
inductive Concludes (t : ScalarType) (errors : List FieldError) :
    ConversionResult → Except ConverterError (Option Scalar × List FieldError) → Prop
  /-- A value beside the errors is dropped. -/
  | refused {value : Option Converted} {more : List FieldError} : more ≠ [] →
      Concludes t errors { value, errors := more } (.ok (none, errors ++ more))
  | silent : Concludes t errors {} (.ok (none, errors))
  | found {converted : Converted} {x : Scalar} : converted.toScalar? t = some x →
      Concludes t errors { value := some converted } (.ok (some x, errors))
  | mistaken {converted : Converted} : converted.toScalar? t = none →
      Concludes t errors { value := some converted } (.error (.typeMismatch t))

/-- The answer of a conversion, and the errors after it; a mistake in the set-up adds none. -/
def answerAndErrors (errors : List FieldError) :
    Except ConverterError (Option Scalar × List FieldError) →
      Except ConverterError (Option Scalar) × List FieldError
  | .ok (value, left) => (.ok value, left)
  | .error e => (.error e, errors)

/-- The errors found so far stay in front, and there is a value only if none was appended. -/
def ValueOrErrors (errors : List FieldError)
    (outcome : Except ConverterError (Option Scalar) × List FieldError) : Prop :=
  errors <+: outcome.2 ∧ ∀ x, outcome.1 = .ok (some x) → outcome.2 = errors

theorem Concludes.valueOrErrors {result : ConversionResult}
    {answer : Except ConverterError (Option Scalar × List FieldError)}
    (h : Concludes t errors result answer) :
    ValueOrErrors errors (answerAndErrors errors answer) := by
  cases h with
  | refused => exact ⟨List.prefix_append _ _, fun x hx => by cases hx⟩
  | silent | found | mistaken => exact ⟨List.prefix_rfl, fun x _ => rfl⟩

namespace ConverterRegistry

variable {r : ConverterRegistry} {c : Converter}

theorem concludes_convert (h : r.converter? t = some c) (l : Locale) (text : String)
    (errors : List FieldError) : Concludes t errors (c l text) (r.convert t l text errors) := by
  rw [convert, h]
  dsimp only
  rcases c l text with ⟨_ | converted, _ | ⟨e, more⟩⟩
  · exact .silent
  · exact .refused (List.cons_ne_nil e more)
  · cases hs : converted.toScalar? t with
    | none =>
      simp only [List.isEmpty_nil, Bool.not_true, Bool.false_eq_true, ↓reduceIte, hs]
      exact .mistaken hs
    | some x =>
      simp only [List.isEmpty_nil, Bool.not_true, Bool.false_eq_true, ↓reduceIte, hs]
      exact .found hs
  · exact .refused (List.cons_ne_nil e more)

theorem valueOrErrors_convert (r : ConverterRegistry) (t : ScalarType) (l : Locale) (text : String)
    (errors : List FieldError) :
    ValueOrErrors errors (answerAndErrors errors (r.convert t l text errors)) := by
  cases hc : r.converter? t with
  | none =>
    rw [convert, hc]
    exact ⟨List.prefix_rfl, fun x _ => rfl⟩
  | some c => exact (concludes_convert hc l text errors).valueOrErrors

theorem converter?_of_explicit? (h : r.explicit? t = some c) : r.converter? t = some c := by
  rw [converter?, h, Option.some_or]

/-- A converter that is added is the one registered for its type, also in place of another one. -/
theorem explicit?_add (r : ConverterRegistry) (t : ScalarType) (c : Converter) :
    (r.add t c).explicit? t = some c := by
  unfold add
  split
  · next h =>
    obtain ⟨e, he, -⟩ := Option.map_eq_some_iff.mp (Option.isSome_iff_exists.mp h).choose_spec
    have ht : e.1 = t := by simpa using List.find?_some he
    have htest : ((fun e => decide (e.1 = t)) ∘ fun e : ScalarType × Converter =>
        if e.1 = t then (t, c) else e) = fun e => decide (e.1 = t) := by
      funext e
      by_cases h : e.1 = t <;> simp [h]
    simp only [explicit?, List.find?_map, htest, he, Option.map_some, ht, ↓reduceIte]
  · next h =>
    have hnone : r.converters.find? (fun e => e.1 = t) = none :=
      Option.map_eq_none_iff.mp (Option.not_isSome_iff_eq_none.mp h)
    simp only [explicit?, List.find?_append, hnone, Option.none_or, List.find?_cons, decide_true,
      Option.map_some]

end ConverterRegistry

/-! ## Decisions -/

namespace ConversionResult

/-- A value without an error, or one error of a conversion without a value. -/
inductive Decided : ConversionResult → Prop
  | value (converted : Converted) : Decided { value := some converted }
  | refused {e : FieldError} : e.kind = .conversion → Decided (.refused e)

section Converters

variable (l : Locale) (text : String)

theorem decided_integerConverter (k : Numeric.IntegerType) :
    (integerConverter k l text).Decided := by
  unfold integerConverter
  split
  · exact .refused rfl
  · exact .refused rfl
  · split
    · exact .value _
    · exact .refused rfl

theorem decided_singleConverter : (singleConverter l text).Decided := by
  unfold singleConverter
  split
  · exact .refused rfl
  · split
    · exact .refused rfl
    · exact .value _

theorem decided_doubleConverter : (doubleConverter l text).Decided := by
  unfold doubleConverter
  split
  · exact .refused rfl
  · exact .value _

theorem decided_bigIntegerConverter : (bigIntegerConverter l text).Decided := by
  unfold bigIntegerConverter
  split
  · exact .refused rfl
  · exact .value _

theorem decided_decimalConverter : (decimalConverter l text).Decided := by
  unfold decimalConverter
  split
  · exact .refused rfl
  · exact .value _

theorem decided_dateConverter : (dateConverter l text).Decided := by
  unfold dateConverter
  dsimp only
  split
  · exact .refused rfl
  · exact .value _

/-- The only silent answer of a built-in converter is the one to an empty text. -/
theorem decided_characterConverter (h : text ≠ "") : (characterConverter l text).Decided := by
  unfold characterConverter
  split
  · next hempty => exact absurd (String.toList_eq_nil_iff.mp hempty) h
  · exact .value _

theorem decided_constantConverter (constants : List String) :
    (constantConverter constants l text).Decided := by
  unfold constantConverter
  split
  · exact .value _
  · exact .refused rfl

end Converters

theorem decided_builtIn {c : Converter} (hc : ConverterRegistry.builtIn.converter? t = some c)
    (l : Locale) (h : text ≠ "") : (c l text).Decided := by
  cases t with
  | foreign name => cases hc
  | integer k =>
    rw [ConverterRegistry.builtIn_integer] at hc
    obtain rfl := Option.some.inj hc
    exact decided_integerConverter l text k
  | bool | text =>
    cases hc
    exact .value _
  | single =>
    cases hc
    exact decided_singleConverter l text
  | double =>
    cases hc
    exact decided_doubleConverter l text
  | bigInteger =>
    cases hc
    exact decided_bigIntegerConverter l text
  | decimal =>
    cases hc
    exact decided_decimalConverter l text
  | date =>
    cases hc
    exact decided_dateConverter l text
  | character =>
    cases hc
    exact decided_characterConverter l text h
  | enumeration e =>
    cases hc
    exact decided_constantConverter l text e.constants

end ConversionResult

/-! ## Reporters -/

/-- A converter that is handed the errors found so far: it gives a value or none, and leaves a list
of errors. -/
abbrev Reporter :=
  ScalarType → Locale → String → List FieldError → Option Converted × List FieldError

namespace Reporter

/-- The reporter puts errors behind those that it is handed, and does nothing else to them. -/
def OnlyAppends (c : Reporter) : Prop := ∀ t l text errors, errors <+: (c t l text errors).2

/-- What a reporter does at a list of errors. -/
def behavior (c : Reporter) (t : ScalarType) (errors : List FieldError) : Converter := fun l text =>
  { value := (c t l text errors).1, errors := (c t l text errors).2.drop errors.length }

end Reporter

namespace Converter

/-- Puts the errors of a converter behind those found so far. -/
def reporter (c : Converter) : Reporter := fun _ l text errors =>
  ((c l text).value, errors ++ (c l text).errors)

theorem onlyAppends_reporter (c : Converter) : c.reporter.OnlyAppends :=
  fun _ _ _ _ => List.prefix_append _ _

theorem behavior_reporter (c : Converter) (t : ScalarType) (errors : List FieldError) :
    c.reporter.behavior t errors = c := by
  funext l text
  rw [Reporter.behavior, reporter, List.drop_left]

end Converter

/-- Reporters by type. -/
abbrev Reporters := List (ScalarType × Reporter)

namespace Reporters

/-- The reporter registered for a type. -/
def explicit? (reporters : Reporters) (t : ScalarType) : Option Reporter :=
  (reporters.find? fun e => e.1 = t).map (·.2)

/-- The reporter of a type: the registered one, or that of the constants. -/
def reporter? (reporters : Reporters) (t : ScalarType) : Option Reporter :=
  (reporters.explicit? t).or
    (t.constants?.map fun constants => (constantConverter constants).reporter)

/-- Converts a text to a value of a type: the value, and the errors that the reporter leaves. The
value does not count if the list of errors has become longer. -/
def convert (reporters : Reporters) (t : ScalarType) (l : Locale) (text : String)
    (errors : List FieldError) : Except ConverterError (Option Scalar) × List FieldError :=
  match reporters.reporter? t with
  | none => (.error (.notFound t), errors)
  | some c =>
    let (value, left) := c t l text errors
    if errors.length < left.length then (.ok none, left)
    else
      match value with
      | none => (.ok none, left)
      | some converted =>
        match converted.toScalar? t with
        | some x => (.ok (some x), left)
        | none => (.error (.typeMismatch t), left)

/-- What reporters do at a list of errors. -/
def behavior (reporters : Reporters) (errors : List FieldError) : ConverterRegistry :=
  ⟨reporters.map fun e => (e.1, e.2.behavior e.1 errors)⟩

variable {reporters : Reporters}

theorem explicit?_behavior (reporters : Reporters) (t : ScalarType) (errors : List FieldError) :
    (reporters.behavior errors).explicit? t =
      (reporters.explicit? t).map fun c => c.behavior t errors := by
  unfold ConverterRegistry.explicit? behavior explicit?
  rw [List.find?_map]
  show ((reporters.find? fun e => e.1 = t).map _).map _ = _
  cases hf : reporters.find? fun e => e.1 = t with
  | none => rfl
  | some e =>
    have ht : e.1 = t := by simpa using List.find?_some hf
    simp only [Option.map_some, ht]

theorem converter?_behavior (reporters : Reporters) (t : ScalarType) (errors : List FieldError) :
    (reporters.behavior errors).converter? t =
      (reporters.reporter? t).map fun c => c.behavior t errors := by
  unfold ConverterRegistry.converter? reporter?
  rw [explicit?_behavior]
  cases reporters.explicit? t with
  | some c => rfl
  | none =>
    cases t.constants? with
    | none => rfl
    | some constants =>
      exact congrArg some (Converter.behavior_reporter (constantConverter constants) t errors).symm

theorem onlyAppends_of_reporter? (h : ∀ e ∈ reporters, e.2.OnlyAppends) {c : Reporter}
    (hc : reporters.reporter? t = some c) : c.OnlyAppends := by
  rcases Option.or_eq_some_iff.mp hc with hc | ⟨-, hc⟩
  · obtain ⟨e, he, rfl⟩ := Option.map_eq_some_iff.mp hc
    exact h e (List.mem_of_find?_eq_some he)
  · obtain ⟨constants, -, rfl⟩ := Option.map_eq_some_iff.mp hc
    exact Converter.onlyAppends_reporter _

/-- A conversion with reporters that only append is one with what they do at the list. -/
theorem convert_eq (h : ∀ e ∈ reporters, e.2.OnlyAppends) (t : ScalarType) (l : Locale)
    (text : String) (errors : List FieldError) :
    reporters.convert t l text errors =
      answerAndErrors errors ((reporters.behavior errors).convert t l text errors) := by
  have hbehavior := converter?_behavior reporters t errors
  unfold convert
  cases hc : reporters.reporter? t with
  | none =>
    rw [hc, Option.map_none] at hbehavior
    rw [ConverterRegistry.convert, hbehavior]
    rfl
  | some c =>
    rw [hc, Option.map_some] at hbehavior
    have hconcludes := ConverterRegistry.concludes_convert hbehavior l text errors
    obtain ⟨more, hmore⟩ := onlyAppends_of_reporter? h hc t l text errors
    have hanswer : c.behavior t errors l text = ⟨(c t l text errors).1, more⟩ := by
      rw [Reporter.behavior, ← hmore, List.drop_left]
    rw [hanswer] at hconcludes
    -- What the reporter leaves is `errors ++ more`, so that the test of the length is one on `more`.
    dsimp only
    rcases hleft : c t l text errors with ⟨value, left⟩
    rw [hleft] at hconcludes hmore
    dsimp only at hconcludes hmore ⊢
    subst hmore
    generalize (reporters.behavior errors).convert t l text errors = answer at hconcludes ⊢
    cases hconcludes with
    | refused hne =>
      have hlonger : errors.length < (errors ++ more).length := by
        have := List.length_pos_iff.mpr hne
        rw [List.length_append]
        omega
      rw [if_pos hlonger]
      rfl
    | silent => simp [answerAndErrors]
    | found hs => simp [answerAndErrors, hs]
    | mistaken hs => simp [answerAndErrors, hs]

end Reporters

namespace ConverterRegistry

/-- The converters of a registry as reporters. -/
def reporters (r : ConverterRegistry) : Reporters :=
  r.converters.map fun e => (e.1, e.2.reporter)

theorem onlyAppends_reporters (r : ConverterRegistry) : ∀ e ∈ r.reporters, e.2.OnlyAppends := by
  intro e he
  obtain ⟨e, -, rfl⟩ := List.mem_map.mp he
  exact Converter.onlyAppends_reporter e.2

theorem behavior_reporters (r : ConverterRegistry) (errors : List FieldError) :
    r.reporters.behavior errors = r := by
  have hmap : (fun e : ScalarType × Converter => (e.1, e.2.reporter.behavior e.1 errors)) = id := by
    funext e
    rw [Converter.behavior_reporter]
    rfl
  simp only [reporters, Reporters.behavior, List.map_map, Function.comp_def, hmap, List.map_id]

/-- A built-in converter of a type makes a value of the type or one error of a text. -/
theorem convert_builtIn_of_ne (h : text ≠ "") (ht : (builtIn.converter? t).isSome = true)
    (l : Locale) (errors : List FieldError) :
    (∃ x, x.type = t ∧ builtIn.convert t l text errors = .ok (some x, errors)) ∨
      ∃ e : FieldError, e.kind = .conversion ∧
        builtIn.convert t l text errors = .ok (none, errors ++ [e]) := by
  obtain ⟨c, hc⟩ := Option.isSome_iff_exists.mp ht
  have hconcludes := concludes_convert hc l text errors
  obtain ⟨answer, hanswer⟩ : ∃ answer, builtIn.convert t l text errors = .ok answer :=
    exists_convert_builtIn ht errors
  have hdecided := ConversionResult.decided_builtIn hc l h
  -- The conversion makes no mistake, which leaves one conclusion for each decision.
  rw [hanswer] at hconcludes ⊢
  generalize c l text = result at hconcludes hdecided
  cases hdecided with
  | value converted =>
    cases hconcludes with
    | refused hne => exact absurd rfl hne
    | found => exact .inl ⟨_, type_of_convert hanswer, rfl⟩
  | refused hkind =>
    cases hconcludes with
    | refused => exact .inr ⟨_, hkind, rfl⟩

/-- **A value or errors, never both.** A conversion leaves the errors found so far in front and has
a value only if none was appended, for converters that answer and for ones that append to the list,
which come to the same. A registered converter is the one that answers, also for a type of
constants, and a value beside its errors is dropped. With the built-in converters every text that is
not empty has a value of the type and no new error, or no value and one new error of a
conversion. -/
theorem convert_value_or_errors (t : ScalarType) (l : Locale) (text : String)
    (errors : List FieldError) :
    (∀ reporters : Reporters, (∀ e ∈ reporters, e.2.OnlyAppends) →
      reporters.convert t l text errors =
          answerAndErrors errors ((reporters.behavior errors).convert t l text errors) ∧
        ValueOrErrors errors (reporters.convert t l text errors) ∧
        ∀ c, reporters.explicit? t = some c →
          Concludes t errors (c.behavior t errors l text)
            ((reporters.behavior errors).convert t l text errors)) ∧
    (∀ r : ConverterRegistry,
      ValueOrErrors errors (answerAndErrors errors (r.convert t l text errors)) ∧
        ∀ c, r.explicit? t = some c →
          Concludes t errors (c l text) (r.convert t l text errors)) ∧
    (text ≠ "" → (builtIn.converter? t).isSome = true →
      (∃ x, x.type = t ∧ builtIn.convert t l text errors = .ok (some x, errors)) ∨
        ∃ e : FieldError, e.kind = .conversion ∧
          builtIn.convert t l text errors = .ok (none, errors ++ [e])) := by
  refine ⟨fun reporters h => ?_, fun r => ?_, fun h ht => convert_builtIn_of_ne h ht l errors⟩
  · have heq := Reporters.convert_eq h t l text errors
    refine ⟨heq, ?_, fun c hc => ?_⟩
    · rw [heq]
      exact valueOrErrors_convert _ t l text errors
    · have hbehavior := Reporters.explicit?_behavior reporters t errors
      rw [hc, Option.map_some] at hbehavior
      exact concludes_convert (converter?_of_explicit? hbehavior) l text errors
  · exact ⟨valueOrErrors_convert r t l text errors,
      fun c hc => concludes_convert (converter?_of_explicit? hc) l text errors⟩

/-- A converter with a value beside its errors, behind an error of a date; a converter that takes
every text for a priority; and the text that the constants alone refuse. -/
theorem convert_value_or_errors_sample :
    (ValueOrErrors [invalidDate]
        (Sample.converters.reporters.convert (.integer .int16) .us "12" [invalidDate]) ∧
      Sample.converters.reporters.convert (.integer .int16) .us "12" [invalidDate] =
        (.ok none, [invalidDate, .simple "first",
          (FieldError.conversion "custom.bad").addParameter "2"]) ∧
      ∃ c, Sample.converters.reporters.explicit? (.integer .int16) = some c ∧
        Concludes (.integer .int16) [invalidDate]
          (c.behavior (.integer .int16) [invalidDate] .us "12")
          (Sample.converters.convert (.integer .int16) .us "12" [invalidDate])) ∧
    Concludes (.enumeration Sample.priority) [] (Sample.priorityConverter .us "urgent")
      ((builtIn.add (.enumeration Sample.priority) Sample.priorityConverter).convert
        (.enumeration Sample.priority) .us "urgent" []) ∧
    ((∃ x, x.type = .enumeration Sample.priority ∧
        builtIn.convert (.enumeration Sample.priority) .us "urgent" [] = .ok (some x, [])) ∨
      ∃ e : FieldError, e.kind = .conversion ∧
        builtIn.convert (.enumeration Sample.priority) .us "urgent" [] = .ok (none, [e])) := by
  refine ⟨?_, ?_, ?_⟩
  · obtain ⟨-, hkept, hexplicit⟩ :=
      (convert_value_or_errors (.integer .int16) .us "12" [invalidDate]).1
        Sample.converters.reporters (onlyAppends_reporters _)
    rw [behavior_reporters] at hexplicit
    exact ⟨hkept, rfl, _, rfl, hexplicit _ rfl⟩
  · exact ((convert_value_or_errors _ _ _ _).2.1 _).2 _ (explicit?_add _ _ _)
  · exact (convert_value_or_errors _ _ _ _).2.2 (by decide) rfl

end ConverterRegistry

end Formwork
