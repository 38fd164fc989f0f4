import Formwork.Proofs.Property.Numbers
import Formwork.Proofs.Property.Ordered
import Formwork.Proofs.Sample.Catalogue

/-!
# Assigning sequences

An element of a sequence is a new value that one of the submitted texts is assigned to
(`BindContext.assignNew`). A sequence is what its elements come to one by one, if there are no
failures in any of them, and stays as it is otherwise (`assign_sequence_eq`).
-/

namespace Formwork

/-- Assigns a text to a new value of a type. -/
def BindContext.assignNew (cx : BindContext) (s : Schema) (text : String) :
    Except PropertyError (Value × List ConversionFailure) :=
  match cx.initial? s with
  | none => .error (.uninstantiable s.name)
  | some fresh => fresh.assign cx [text]

/-- The sequence of what elements come to, if none has failures, and the failures of all. -/
def Value.replacedBy (old : Value) (element : Schema)
    (results : List (Value × List ConversionFailure)) : Value × List ConversionFailure :=
  let failures := results.flatMap (·.2)
  (if failures = [] then .sequence element (results.map (·.1)) else old, failures)

variable {cx : BindContext} {element : Schema} {values : List String}

/-! ## Failures -/

/-- An assignment that failed has failures. -/
def Assignment.SaysWhy : Assignment → Prop
  | .failed failures => failures ≠ []
  | _ => True

theorem saysWhy_assignment {s : Schema} {a : Assignment} (h : cx.assignment s values = .ok a)
    (hb : allBlank values = false) : a.SaysWhy := by
  have hfew := BindContext.fewNumbers_assignment h hb
  cases a with
  | failed l => exact hfew
  | unchanged | replaced => trivial

/-! ## Elements -/

namespace Assignment

variable {fresh old : Value} {parts : List Assignment}

/-- What a property that had a value comes to. -/
def result (old : Value) (a : Assignment) : Value × List ConversionFailure :=
  (a.apply old, a.failures)

/-- If there are no failures, no element is left out. -/
theorem filterMap_from? (hwhy : ∀ a ∈ parts, a.SaysWhy) (h : parts.flatMap failures = []) :
    parts.filterMap (from? fresh) = parts.map (apply fresh) := by
  induction parts with
  | nil => rfl
  | cons a rest ih =>
    obtain ⟨ha, hrest⟩ := List.append_eq_nil_iff.mp h
    obtain ⟨hwhya, hwhyrest⟩ := List.forall_mem_cons.mp hwhy
    rw [List.map_cons, ← ih hwhyrest hrest]
    cases a with
    | unchanged | replaced => rfl
    | failed l => exact absurd ha hwhya

/-- A sequence comes to what its elements come to. -/
theorem result_assignedItems (hwhy : ∀ a ∈ parts, a.SaysWhy) :
    (assignedItems element fresh parts).result old =
      old.replacedBy element (parts.map (result fresh)) := by
  have hfailures : (parts.map (result fresh)).flatMap (·.2) = parts.flatMap failures := by
    rw [List.flatMap_map]
    rfl
  have hvalues : (parts.map (result fresh)).map (·.1) = parts.map (apply fresh) := by
    rw [List.map_map]
    rfl
  rw [Value.replacedBy, hfailures, hvalues, assignedItems]
  cases h : parts.flatMap failures with
  | nil =>
    rw [filterMap_from? hwhy h]
    rfl
  | cons f l => rfl

end Assignment

section Elements

variable (hs : ∀ fresh, cx.initial? element = some fresh → fresh.schema = element)

include hs

/-- Assigning to a new value is assigning to its type. -/
theorem assignNew_eq {fresh : Value} (h : cx.initial? element = some fresh) (text : String) :
    cx.assignNew element text = (cx.assignment element [text]).map (Assignment.result fresh) := by
  rw [BindContext.assignNew, h]
  show fresh.assign cx [text] = _
  rw [Value.assign, hs fresh h]
  rfl

/-- A sequence is assigned what its elements come to one by one. -/
theorem assign_sequence_eq (items : List Value) (values : List String) :
    (Value.sequence element items).assign cx values =
      ((filledIn values).mapM (cx.assignNew element)).map
        ((Value.sequence element items).replacedBy element) := by
  cases hf : cx.initial? element with
  | none =>
    have hfilled : (values.filter fun v => !Text.isBlank v) = filledIn values := rfl
    rw [Value.assign, Value.schema, BindContext.assignment, hfilled, hf]
    cases hl : filledIn values with
    | nil => rfl
    | cons text rest =>
      rw [List.mapM_cons, BindContext.assignNew, hf]
      rfl
  | some fresh =>
    have hnew : cx.assignNew element =
        fun text => (cx.assignment element [text]).map (Assignment.result fresh) :=
      funext (assignNew_eq hs hf)
    rw [Value.assign, Value.schema, BindContext.assignment_sequence_eq hf, hnew, mapM_map_eq]
    cases hm : (filledIn values).mapM fun text => cx.assignment element [text] with
    | error e => rfl
    | ok parts =>
      have hwhy : ∀ a ∈ parts, a.SaysWhy := fun a ha => by
        obtain ⟨text, ht, he⟩ := exists_of_mem_mapM hm ha
        exact saysWhy_assignment he (allBlank_of_mem_filledIn ht)
      exact congrArg Except.ok (Assignment.result_assignedItems hwhy)

end Elements

/-- **Elements.** If no element is refused, then each value that is not blank is assigned to a new
element on its own. The failures of the sequence are those of its elements in order, and if there
are none, its elements are these, whatever it held before. -/
theorem assign_sequence_alone (hc : cx.Sound) (element : Schema) (items : List Value)
    (values : List String)
    (h : ∀ text ∈ filledIn values, ∃ result, cx.assignNew element text = .ok result) :
    ∃ results, List.Forall₂ (fun text result => cx.assignNew element text = .ok result)
        (filledIn values) results ∧
      (Value.sequence element items).assign cx values =
        .ok (if results.flatMap (·.2) = [] then .sequence element (results.map (·.1))
          else .sequence element items, results.flatMap (·.2)) := by
  obtain ⟨results, hresults⟩ := exists_mapM_eq_ok h
  refine ⟨results, mapM_eq_ok_iff.mp hresults, ?_⟩
  rw [assign_sequence_eq fun _ => BindContext.schema_of_initial? hc, hresults]
  rfl

/-- Quantities are submitted, two of which are no numbers. Both are reported, and the quantities
stay as they were. -/
theorem assign_sequence_alone_quantities :
    (Value.sequence (Fields.integer .int64) [.scalar (.integer .int64 7)]).assign
        (Sample.bindContext .builtIn .us) ["1", "", "x", "3", "y"] =
      .ok (.sequence (Fields.integer .int64) [.scalar (.integer .int64 7)],
        [⟨"x", invalidNumber⟩, ⟨"y", invalidNumber⟩]) := by
  let cx := Sample.bindContext .builtIn .us
  have hc : cx.Sound := Sample.sound_bindContext .builtIn .us
  have hfilled : filledIn ["1", "", "x", "3", "y"] = ["1", "x", "3", "y"] := by decide +kernel
  have hm : (filledIn ["1", "", "x", "3", "y"]).mapM (cx.assignNew (Fields.integer .int64)) =
      .ok [(.scalar (.integer .int64 1), []), (.scalar (.integer .int64 0), [⟨"x", invalidNumber⟩]),
        (.scalar (.integer .int64 3), []),
        (.scalar (.integer .int64 0), [⟨"y", invalidNumber⟩])] := by
    rw [hfilled]
    rfl
  have hsome : ∀ text ∈ filledIn ["1", "", "x", "3", "y"],
      ∃ result, cx.assignNew (Fields.integer .int64) text = .ok result :=
    exists_forall₂_iff.mp ⟨_, (mapM_eq_ok_iff.mp hm).flip⟩
  obtain ⟨results, hresults, hassign⟩ := assign_sequence_alone hc (Fields.integer .int64)
    [.scalar (.integer .int64 7)] ["1", "", "x", "3", "y"] hsome
  obtain rfl := Except.ok.inj ((mapM_eq_ok_iff.mpr hresults).symm.trans hm)
  exact hassign

end Formwork
