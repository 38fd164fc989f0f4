import Formwork.Proofs.Property.Creation
import Formwork.Proofs.Property.Sequences

/-!
# Assigning in place

An assignment writes to the place of a property as it goes (`assignInPlace`): a scalar when it has
been converted, the content of a box where it stands, an option or a sequence after a new value was
made aside. It comes to what the type of the property alone decides (`assigned_eq_assignInPlace`).

- **Loops** (`foldlM_collect`): the elements and the failures of a sequence are collected side by
  side, one text after the other.
- **All or nothing** (`assigned_all_or_nothing`): an assignment that is refused or has failures has
  written nothing.
-/

namespace Formwork

variable {cx : BindContext} {s : Schema} {values : List String} {v : Value}

/-! ## Loops -/

/-- What the element of a text comes to joins the elements so far, or its failures join those so
far. -/
def collect (element : String → Except PropertyError (Value × List ConversionFailure))
    (state : List Value × List ConversionFailure) (text : String) :
    Except PropertyError (List Value × List ConversionFailure) :=
  (element text).map fun result =>
    if result.2 = [] then (state.1 ++ [result.1], state.2) else (state.1, state.2 ++ result.2)

/-- The elements and the failures that have been collected after some results. -/
def collected (state : List Value × List ConversionFailure)
    (results : List (Value × List ConversionFailure)) : List Value × List ConversionFailure :=
  (state.1 ++ (results.filter fun r => r.2 = []).map (·.1), state.2 ++ results.flatMap (·.2))

/-- The loop over the texts of a sequence collects the results of all its elements. -/
theorem foldlM_collect (element : String → Except PropertyError (Value × List ConversionFailure))
    (texts : List String) (state : List Value × List ConversionFailure) :
    texts.foldlM (collect element) state = (texts.mapM element).map (collected state) := by
  induction texts generalizing state with
  | nil => simp [Except.map, pure, Except.pure, collected]
  | cons text rest ih =>
    rw [List.foldlM_cons, List.mapM_cons, collect]
    cases element text with
    | error e => rfl
    | ok result =>
      show rest.foldlM (collect element) _ = _
      rw [ih]
      cases hm : rest.mapM element with
      | error e => rfl
      | ok results =>
        refine congrArg Except.ok ?_
        by_cases hr : result.2 = [] <;> simp [collected, hr]

/-! ## The place of a property -/

/-- The answer together with what is in the place afterwards, if it was not refused. -/
def answered (place : Value × Except PropertyError (List ConversionFailure)) :
    Except PropertyError (Value × List ConversionFailure) :=
  place.2.map fun failures => (place.1, failures)

/-- Assigns submitted values to a property of a type in its place. -/
def assignInPlace (cx : BindContext) : Schema → List String → Value →
    Value × Except PropertyError (List ConversionFailure)
  | .scalar t, values, v =>
    match (values.map Text.trim).find? fun text => !text.isEmpty with
    | none => (v, .ok [])
    | some raw =>
      match cx.converters.convert t cx.locale raw [] with
      | .error e => (v, .error (.converter e))
      | .ok (some x, _) => (.scalar x, .ok [])
      | .ok (none, errors) => (v, .ok (errors.map fun e => ⟨raw, e⟩))
  | .option inner, values, v =>
    if allBlank values then (.absent inner, .ok [])
    else
      match cx.initial? inner with
      | none => (v, .error (.uninstantiable inner.name))
      | some fresh =>
        -- The payload is made aside, and the old value stays in place until it is complete.
        match assignInPlace cx inner values fresh with
        | (_, .error e) => (v, .error e)
        | (candidate, .ok []) => (.present candidate, .ok [])
        | (_, .ok failures) => (v, .ok failures)
  | .box inner, values, .boxed v =>
    let (content, answer) := assignInPlace cx inner values v
    (.boxed content, answer)
  | .box inner, _, v => (v, .error (.notAssignable (Schema.box inner).name))
  | .sequence element, values, v =>
    let assignElement := fun text =>
      match cx.initial? element with
      | none => .error (.uninstantiable element.name)
      | some fresh => answered (assignInPlace cx element [text] fresh)
    match (filledIn values).foldlM (collect assignElement) ([], []) with
    | .error e => (v, .error e)
    | .ok (items, []) => (.sequence element items, .ok [])
    | .ok (_, failures) => (v, .ok failures)
  | .map kind element, _, v => (v, .error (.notAssignable (Schema.map kind element).name))
  | .bean id, _, v => (v, .error (.notAssignable id.name))

/-- An assignment in place succeeds without failures, or has written nothing. -/
theorem fst_assignInPlace (cx : BindContext) (s : Schema) (values : List String) (v : Value) :
    (assignInPlace cx s values v).2 = .ok [] ∨ (assignInPlace cx s values v).1 = v := by
  induction s generalizing v values with
  | scalar t =>
    rw [assignInPlace]
    split
    · exact .inl rfl
    · split
      · exact .inr rfl
      · exact .inl rfl
      · exact .inr rfl
  | option inner ih =>
    rw [assignInPlace]
    split
    · exact .inl rfl
    · split
      · exact .inr rfl
      · split
        · exact .inr rfl
        · exact .inl rfl
        · exact .inr rfl
  | box inner ih =>
    cases v with
    | boxed content => exact (ih values content).imp_right (congrArg Value.boxed)
    | _ => exact .inr rfl
  | sequence element ih =>
    simp only [assignInPlace]
    split
    · exact .inr rfl
    · exact .inl rfl
    · exact .inr rfl
  | map | bean => exact .inr rfl

/-! ## Agreement -/

theorem answered_assigned : answered (v.assigned cx values) = v.assign cx values := by
  unfold answered Value.assigned
  cases v.assign cx values <;> rfl

/-- What is left of results without failures. -/
theorem collected_of_flatMap_eq_nil {results : List (Value × List ConversionFailure)}
    (h : results.flatMap (·.2) = []) :
    collected ([], []) results = (results.map (·.1), []) := by
  have hall : results.filter (fun r => r.2 = []) = results :=
    List.filter_eq_self.mpr fun r hr => by simpa using List.flatMap_eq_nil_iff.mp h r hr
  simp [collected, hall, h]

/-- Assigning in place comes to what the type of the property decides. -/
theorem assigned_eq_assignInPlace (hc : cx.Sound) (h : v.schema = s) :
    v.assigned cx values = assignInPlace cx s values v := by
  -- New payloads and elements are of their types, so that the induction hypothesis is about them.
  induction s generalizing v values with
  | scalar t =>
    rw [assignInPlace, Value.assigned, Value.assign, h, BindContext.assignment,
      BindContext.assignScalar]
    cases (values.map Text.trim).find? fun text => !text.isEmpty with
    | none => rfl
    | some raw =>
      dsimp only
      rcases cx.converters.convert t cx.locale raw [] with e | ⟨_ | x, _ | ⟨e, errors⟩⟩ <;> rfl
  | option inner ih =>
    rw [assignInPlace, Value.assigned, Value.assign, h, BindContext.assignment]
    cases hb : allBlank values with
    | true => rfl
    | false =>
      simp only [Bool.false_eq_true, ↓reduceIte]
      cases hf : cx.initial? inner with
      | none => rfl
      | some fresh =>
        have hfresh := BindContext.schema_of_initial? hc hf
        simp only [← ih hfresh, Value.assigned, Value.assign, hfresh]
        cases ha : cx.assignment inner values with
        | error e => rfl
        | ok a =>
          have hwhy := saysWhy_assignment ha hb
          cases a with
          | unchanged | replaced => rfl
          | failed l =>
            -- Without a failure in the list, the run would take it for a success.
            obtain ⟨f, more, rfl⟩ := List.exists_cons_of_ne_nil hwhy
            rfl
  | box inner ih =>
    cases v with
    | boxed content =>
      rw [assignInPlace, ← ih (Schema.box.inj h), Value.assigned, Value.assign, h,
        BindContext.assignment, Value.assigned, Value.assign, Schema.box.inj h]
      rcases cx.assignment inner values with e | _ | _ | _ <;> rfl
    | _ => cases h
  | sequence element ih =>
    cases v with
    | sequence _ items =>
      cases h
      have helement : cx.assignNew element = fun text =>
          match cx.initial? element with
          | none => .error (.uninstantiable element.name)
          | some fresh => answered (assignInPlace cx element [text] fresh) := by
        funext text
        rw [BindContext.assignNew]
        cases hf : cx.initial? element with
        | none => rfl
        | some fresh =>
          dsimp only
          rw [← ih (BindContext.schema_of_initial? hc hf), answered_assigned]
      simp only [assignInPlace]
      rw [← helement, foldlM_collect, Value.assigned,
        assign_sequence_eq fun _ => BindContext.schema_of_initial? hc]
      cases (filledIn values).mapM (cx.assignNew element) with
      | error e => rfl
      | ok results =>
        cases hl : results.flatMap (·.2) with
        | nil => simp [collected_of_flatMap_eq_nil hl, Value.replacedBy, hl, Except.map]
        | cons f more => simp [collected, Value.replacedBy, hl, Except.map]
    | _ => cases h
  | map kind element => rw [Value.assigned, Value.assign, h]; rfl
  | bean name => rw [Value.assigned, Value.assign, h]; rfl

/-! ## All or nothing -/

/-- A path that is not bound without failures is only prepared. -/
theorem fst_bind_eq_prepared {path : List Segment}
    (hassigned : ∀ leaf : Value, (leaf.assigned cx values).2 = .ok [] ∨
      (leaf.assigned cx values).1 = leaf) :
    (v.bind cx values path).2 = .ok [] ∨
      (v.bind cx values path).1 = Value.prepared cx path v := by
  induction path generalizing v with
  | nil => exact hassigned v
  | cons segment rest ih =>
    rw [Value.bind]
    cases hl : (v.filled cx).locate cx segment with
    | error e =>
      rw [Value.descend_of_error hl, Value.prepared_of_error hl]
      exact .inr rfl
    | ok found =>
      rw [Value.descend_of_ok hl, Value.prepared_of_ok hl]
      exact ih.imp_right (congrArg _)

/-- **All or nothing.** The property after an assignment is what a run over its place leaves there,
write by write. If the assignment is refused or has failures, the property is what it was; at the
end of a path, the bean is what it was but for what the path created. -/
theorem assigned_all_or_nothing (hc : cx.Sound) (values : List String) (v : Value) :
    v.assigned cx values = assignInPlace cx v.schema values v ∧
    ((v.assigned cx values).2 ≠ .ok [] → (v.assigned cx values).1 = v) ∧
    ∀ path, (v.bind cx values path).2 ≠ .ok [] →
      (v.bind cx values path).1 = Value.prepared cx path v := by
  have hassigned : ∀ leaf : Value, (leaf.assigned cx values).2 = .ok [] ∨
      (leaf.assigned cx values).1 = leaf := fun leaf => by
    rw [assigned_eq_assignInPlace hc rfl]
    exact fst_assignInPlace cx leaf.schema values leaf
  exact ⟨assigned_eq_assignInPlace hc rfl, (hassigned v).resolve_left,
    fun path => (fst_bind_eq_prepared hassigned).resolve_left⟩

/-- The converter of small integers has two errors for each of two texts, and the sequence that was
there stays. -/
theorem assigned_all_or_nothing_smallIntegers :
    let v : Value := .sequence (.option (Fields.integer .int16)) [.absent (Fields.integer .int16)]
    let bad size := (FieldError.conversion "custom.bad").addParameter size
    v.assigned (Sample.bindContext Sample.converters .us) ["5", " ", "10"] =
      (v, .ok [⟨"5", .simple "first"⟩, ⟨"5", bad "1"⟩, ⟨"10", .simple "first"⟩,
        ⟨"10", bad "2"⟩]) := by
  intro v bad
  have hfailed : (v.assigned (Sample.bindContext Sample.converters .us) ["5", " ", "10"]).2 =
      .ok [⟨"5", .simple "first"⟩, ⟨"5", bad "1"⟩, ⟨"10", .simple "first"⟩, ⟨"10", bad "2"⟩] := rfl
  obtain ⟨-, hsame, -⟩ := assigned_all_or_nothing (Sample.sound_bindContext Sample.converters .us)
    ["5", " ", "10"] v
  refine Prod.ext (hsame ?_) hfailed
  rw [hfailed]
  nofun

end Formwork
