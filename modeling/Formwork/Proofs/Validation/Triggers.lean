import Formwork.Proofs.Validation.Errors

/-!
# Which validators run

A validator outside the scope of an event is passed over, and one that waits for no errors is passed
over as soon as there is one. With validators that only add errors, the first error is the end of
all that wait.

- **Parts of a list** (`met_append`): the validators of a list that run are those of its front, and
  those of its back with the errors that the front leaves.
- **Scopes** (`runAll_filter_concerns`, `met_filter_concerns`): a list without the validators that
  do not have the event does the same.
- **Errors** (`isEmpty_runAll_iff`): after validators that only add errors there is none iff there
  was none and no validator that ran has added one. Where there is one, all that is left are the
  validators that always run (`runAll_of_not_isEmpty`).
-/

namespace Formwork

theorem FieldErrors.isEmpty_iff_under {es : FieldErrors} :
    es.isEmpty = true ↔ ∀ field, es.under field = [] := by
  constructor
  · exact under_eq_nil_of_isEmpty
  · intro h
    rw [isEmpty_iff]
    intro field l hl
    have hunder := h field
    rwa [under, get?, hl] at hunder

namespace CustomValidator

variable {β : Type} {v : CustomValidator β} {validators : List (CustomValidator β)} {bean : β}
  {event : String} {errors : FieldErrors}

/-- The validator has the event in its scope. -/
def concerns (event : String) (v : CustomValidator β) : Bool := v.scope.applies event

/-- The validator has the event and runs whether there are errors or not. -/
def unconditional (event : String) (v : CustomValidator β) : Bool :=
  v.concerns event && v.trigger == .always

/-- A validator adds no error to those that it meets. -/
def Content (bean : β) (m : CustomValidator β × FieldErrors) : Prop :=
  ∀ field, m.1.added bean m.2 field = []

/-! ## Parts of a list -/

theorem met_append (front back : List (CustomValidator β)) (bean : β) (event : String)
    (errors : FieldErrors) : met bean event (front ++ back) errors =
      met bean event front errors ++ met bean event back (runAll front bean event errors) := by
  induction front generalizing errors with
  | nil => rfl
  | cons v rest ih =>
    rw [List.cons_append, met, met]
    by_cases hr : v.runs event errors = true
    · rw [if_pos hr, if_pos hr, ih, runAll_cons_of_runs hr, List.cons_append]
    · rw [if_neg hr, if_neg hr, ih, runAll_cons_of_not_runs hr]

/-! ## Scopes -/

theorem not_runs_of_not_concerns (h : ¬ v.concerns event = true) (errors : FieldErrors) :
    ¬ v.runs event errors = true := by
  intro hr
  exact h (Bool.and_eq_true_iff.mp hr).1

theorem runAll_filter_concerns (validators : List (CustomValidator β)) (bean : β) (event : String)
    (errors : FieldErrors) :
    runAll (validators.filter (concerns event)) bean event errors =
      runAll validators bean event errors := by
  induction validators generalizing errors with
  | nil => rfl
  | cons v rest ih =>
    by_cases hs : v.concerns event = true
    · rw [List.filter_cons_of_pos hs]
      exact ih _
    · rw [List.filter_cons_of_neg hs, ih, runAll_cons_of_not_runs (not_runs_of_not_concerns hs _)]

theorem met_filter_concerns (validators : List (CustomValidator β)) (bean : β) (event : String)
    (errors : FieldErrors) :
    met bean event (validators.filter (concerns event)) errors =
      met bean event validators errors := by
  induction validators generalizing errors with
  | nil => rfl
  | cons v rest ih =>
    by_cases hs : v.concerns event = true
    · rw [List.filter_cons_of_pos hs, met, met, ih, ih]
    · rw [List.filter_cons_of_neg hs, ih, met, if_neg (not_runs_of_not_concerns hs _)]

/-! ## Errors -/

theorem OnlyAdds.keepsErrors (h : v.OnlyAdds) : v.KeepsErrors := by
  intro bean errors he
  rw [Bool.eq_false_iff] at he ⊢
  intro hempty
  refine he (FieldErrors.isEmpty_iff_under.mpr fun field => ?_)
  have hprefix := h bean errors field
  rw [FieldErrors.under_eq_nil_of_isEmpty hempty] at hprefix
  exact List.prefix_nil.mp hprefix

/-- There is no error at the end iff there was none and no validator that ran has added one. -/
theorem isEmpty_runAll_iff (h : ∀ v ∈ validators, v.OnlyAdds) :
    (runAll validators bean event errors).isEmpty = true ↔
      errors.isEmpty = true ∧ ∀ m ∈ met bean event validators errors, Content bean m := by
  simp only [FieldErrors.isEmpty_iff_under, under_runAll h, List.append_eq_nil_iff,
    List.flatMap_eq_nil_iff, Content]
  constructor
  · intro hall
    exact ⟨fun field => (hall field).1, fun m hm field => (hall field).2 m hm⟩
  · rintro ⟨hnone, hcontent⟩ field
    exact ⟨hnone field, fun m hm => hcontent m hm field⟩

/-- Where there is an error, the validators that run are those that always do. -/
theorem runs_of_not_isEmpty (h : errors.isEmpty = false) (v : CustomValidator β) :
    v.runs event errors = v.unconditional event := by
  rw [runs, h, Bool.or_false]
  rfl

/-- What is left to do where there is an error. -/
theorem runAll_of_not_isEmpty (hk : ∀ v ∈ validators, v.KeepsErrors)
    (h : errors.isEmpty = false) :
    runAll validators bean event errors =
      (validators.filter (unconditional event)).foldl (fun errors v => v.check bean errors)
        errors := by
  induction validators generalizing errors with
  | nil => rfl
  | cons v rest ih =>
    obtain ⟨hv, hrest⟩ := List.forall_mem_cons.mp hk
    by_cases hu : v.unconditional event = true
    · have hr : v.runs event errors = true := (runs_of_not_isEmpty h v).trans hu
      rw [runAll_cons_of_runs hr, ih hrest (hv bean errors h), List.filter_cons_of_pos hu,
        List.foldl_cons]
    · have hr : ¬ v.runs event errors = true := by rwa [runs_of_not_isEmpty h]
      rw [runAll_cons_of_not_runs hr, ih hrest h, List.filter_cons_of_neg hu]

theorem runs_iff_of_noErrors (h : v.trigger = .noErrors) :
    v.runs event errors = true ↔ v.concerns event = true ∧ errors.isEmpty = true := by
  rw [runs, h, Bool.and_eq_true]
  exact and_congr_right fun _ => Iff.of_eq (congrArg (· = true) (Bool.false_or _))

/-- **A clean slate.** Let validators only add errors. One that waits for no errors runs iff it has
the event, there was no error at the start, and none of those that ran before it has added one.
Where there was an error at the start, the result is that of the validators that have the event and
always run, in their order. A validator that does not have the event is of no account to the result
and to which others run. -/
theorem runAll_clean_slate (h : ∀ v ∈ validators, v.OnlyAdds) (bean : β) (event : String)
    (errors : FieldErrors) :
    (∀ front v back, validators = front ++ v :: back →
      met bean event validators errors = met bean event front errors ++
        (if v.runs event (runAll front bean event errors) then
          [(v, runAll front bean event errors)] else []) ++
        met bean event back (runAll (front ++ [v]) bean event errors) ∧
      (v.trigger = .noErrors → (v.runs event (runAll front bean event errors) = true ↔
        v.concerns event = true ∧ errors.isEmpty = true ∧
          ∀ m ∈ met bean event front errors, Content bean m))) ∧
    (errors.isEmpty = false → runAll validators bean event errors =
      (validators.filter (unconditional event)).foldl (fun errors v => v.check bean errors)
        errors) ∧
    ∀ others : List (CustomValidator β),
      others.filter (concerns event) = validators.filter (concerns event) →
      runAll others bean event errors = runAll validators bean event errors ∧
        met bean event others errors = met bean event validators errors := by
  refine ⟨?_, fun he => ?_, fun others hsame => ?_⟩
  · rintro front v back rfl
    constructor
    · have hsplit : front ++ v :: back = (front ++ [v]) ++ back := by simp
      rw [hsplit, met_append, met_append]
      rfl
    · intro ht
      rw [runs_iff_of_noErrors ht, isEmpty_runAll_iff fun w hw => h w (List.mem_append_left _ hw)]
  · exact runAll_of_not_isEmpty (fun v hv => (h v hv).keepsErrors) he
  · rw [← runAll_filter_concerns others, hsame, runAll_filter_concerns,
      ← met_filter_concerns others, hsame, met_filter_concerns]
    exact ⟨rfl, rfl⟩

/-- Refuses a divisor that is zero. -/
def divisorNotZero : CustomValidator (Int × Int) where
  name := "divisorNotZero"
  scope := .only ["division"]
  check numbers errors :=
    if numbers.2 = 0 then errors.add "divisor" (.simple "Dividing by zero is not allowed.")
    else errors

/-- Refuses a dividend below zero, if all else is right. -/
def dividendNotNegative : CustomValidator (Int × Int) where
  name := "dividendNotNegative"
  trigger := .noErrors
  check numbers errors :=
    if numbers.1 < 0 then errors.add "dividend" (.simple "Negative.") else errors

/-- A dividend below zero is found in an addition. In a division by zero it is not, and neither is
it in an addition of what was no number. -/
theorem runAll_clean_slate_division :
    let validators := [divisorNotZero, dividendNotNegative]
    let noNumber := FieldErrors.empty.add "divisor" (.conversion "converter.number.invalidNumber")
    dividendNotNegative.runs "addition" (runAll [divisorNotZero] (-1, 0) "addition" .empty) = true ∧
      dividendNotNegative.runs "division" (runAll [divisorNotZero] (-1, 0) "division" .empty) =
        false ∧
      runAll validators (-1, 0) "addition" noNumber = noNumber := by
  intro validators noNumber
  have honly : ∀ v ∈ validators, v.OnlyAdds := by
    intro v hv numbers errors field
    rcases List.mem_cons.mp hv with rfl | hv
    · show _ <+: (if numbers.2 = 0 then _ else errors).under field
      split
      · rw [FieldErrors.add, FieldErrors.under_append]
        exact List.prefix_append _ _
      · exact List.prefix_rfl
    · obtain rfl := List.mem_singleton.mp hv
      show _ <+: (if numbers.1 < 0 then _ else errors).under field
      split
      · rw [FieldErrors.add, FieldErrors.under_append]
        exact List.prefix_append _ _
      · exact List.prefix_rfl
  have hwaits := fun event => ((runAll_clean_slate honly (-1, 0) event .empty).1
    [divisorNotZero] dividendNotNegative [] rfl).2 rfl
  refine ⟨?_, ?_, ?_⟩
  · rw [hwaits]
    exact ⟨rfl, rfl, fun m hm => absurd hm List.not_mem_nil⟩
  · rw [Bool.eq_false_iff, ne_eq, hwaits]
    rintro ⟨-, -, hcontent⟩
    -- The first validator ran, and has added an error.
    have hadded := hcontent (divisorNotZero, .empty) (List.mem_singleton.mpr rfl) "divisor"
    exact absurd hadded (by decide)
  · rw [(runAll_clean_slate honly (-1, 0) "addition" noNumber).2.1 rfl]
    rfl

end CustomValidator

end Formwork
