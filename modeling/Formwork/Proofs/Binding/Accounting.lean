import Formwork.Proofs.Binding.Independence
import Formwork.Proofs.FieldError

/-!
# Every parameter is accounted for

Binding the parameters of a request keeps a report in order (`Accounts`): no parameter is reported
twice, the errors are those of the reported failures, a failure has at least one of them, and a
refusal names its parameter. One step keeps this (`Accounts.bindNext`), and so do all of them
(`Accounts.foldl`).

A report in order counts each of its parameters in exactly one group, and every other name in none
(`Accounts.counted`, `Accounts.counted_none`); `counted_bindParameters` says so of the report on a
request.
-/

namespace Formwork

/-- The outcome fits the parameter: a failure has errors, and a refusal names the parameter. -/
def BoundParameter.Fits (p : BoundParameter) : Prop :=
  match p.outcome with
  | .bound _ => True
  | .failed failures => failures ≠ []
  | .refused e => e.path = p.name

/-- A report in order. -/
structure BindingReport.Accounts (r : BindingReport) : Prop where
  nodup : (r.parameters.map (·.name)).Nodup
  errors_eq : r.errors = FieldErrors.empty.addAll (r.parameters.flatMap BoundParameter.errors)
  fits : ∀ p ∈ r.parameters, p.Fits

/-- The groups of parameters. -/
inductive Account where
  | bound
  | failed
  | refused
  deriving DecidableEq

/-- The group of the parameters with an outcome. -/
def BindingOutcome.account : BindingOutcome → Account
  | bound _ => .bound
  | failed _ => .failed
  | refused _ => .refused

/-- The group of a parameter. -/
def BoundParameter.account (p : BoundParameter) : Account := p.outcome.account

/-- A name is counted in a group, or in none: it is among the bound names once or not at all, it has
errors, all with its name, iff it failed, and one or no refusal names it. -/
structure BindingReport.Counted (r : BindingReport) (name : String) (group : Option Account) :
    Prop where
  isBound : r.isBound name = true ↔ group = some .bound
  boundNames : r.boundNames.count name = if group = some .bound then 1 else 0
  conversionFailed : r.conversionFailed name = true ↔ group = some .failed
  fields : name ∈ r.errors.fields ↔ group = some .failed
  errors : r.errors.under name ≠ [] ↔ group = some .failed
  named : ∀ e ∈ r.errors.under name, e.field = some name
  refusals : r.refusals.countP (·.path == name) = if group = some .refused then 1 else 0

variable {cx : BindContext} {bean : Value} {name : String} {values : List String}

/-! ## One parameter -/

theorem BoundParameter.fits_bindParameter :
    BoundParameter.Fits ⟨name, values, (bindParameter cx name values bean).2⟩ := by
  unfold Fits
  cases hpath : PropertyPath.parse name with
  | error e =>
    rw [bindParameter_of_error hpath]
    rfl
  | ok path =>
    obtain ⟨w, result, hb⟩ : ∃ w result, bean.bind cx values path.segments = (w, result) :=
      ⟨_, _, rfl⟩
    simp only [bindParameter, hpath, hb]
    cases result with
    | error e => rfl
    | ok failures =>
      cases failures with
      | nil => trivial
      | cons f rest => exact List.cons_ne_nil f rest

namespace BoundParameter

variable {p : BoundParameter}

theorem name_of_mem_errors {e : String × FieldError} (h : e ∈ p.errors) :
    e.1 = p.name ∧ e.2.field = some p.name := by
  unfold errors at h
  split at h
  · obtain ⟨f, -, rfl⟩ := List.mem_map.mp h
    exact ⟨rfl, rfl⟩
  · cases h

theorem errors_ne_nil_iff (h : p.Fits) : p.errors ≠ [] ↔ p.account = .failed := by
  unfold Fits at h
  unfold errors account BindingOutcome.account
  cases ho : p.outcome with
  | bound numbers => simp
  | failed failures =>
    rw [ho] at h
    simpa [BindingReport.failureErrors] using h
  | refused e => simp

/-- The errors carry the name of the parameter already. -/
theorem map_inField_errors (p : BoundParameter) :
    p.errors.map (fun e => e.2.inField e.1) = p.errors.map (·.2) := by
  refine List.map_congr_left fun e he => ?_
  obtain ⟨-, hfield⟩ := name_of_mem_errors he
  unfold FieldError.inField
  rw [hfield, Option.getD_some, ← hfield]

end BoundParameter

namespace BindingReport

variable {r : BindingReport} {p : BoundParameter}

/-! ## Reports in order -/

namespace Accounts

theorem empty : Accounts {} := ⟨List.nodup_nil, rfl, fun _ hp => absurd hp List.not_mem_nil⟩

/-- A report stays in order when a further parameter is recorded whose outcome fits it. -/
theorem record (h : r.Accounts) (hname : p.name ∉ r.parameters.map (·.name)) (hp : p.Fits) :
    (r.record p).Accounts where
  nodup := by
    show ((r.parameters ++ [p]).map (·.name)).Nodup
    rw [List.map_append, List.map_singleton, List.nodup_append]
    refine ⟨h.nodup, List.pairwise_singleton _ _, fun other ho own hown => ?_⟩
    rw [List.mem_singleton.mp hown]
    rintro rfl
    exact hname ho
  errors_eq := by
    show _ = FieldErrors.empty.addAll ((r.parameters ++ [p]).flatMap BoundParameter.errors)
    rw [record_errors, h.errors_eq, List.flatMap_append, List.flatMap_singleton]
    exact List.foldl_append.symm
  fits := by
    intro q hq
    rcases List.mem_append.mp hq with hq | hq
    · exact h.fits q hq
    · rw [List.mem_singleton.mp hq]
      exact hp

theorem bindNext {state : Value × BindingReport} {p : String × List String}
    (h : state.2.Accounts) (hname : p.1 ∉ state.2.parameters.map (·.name)) :
    (bindNext cx state p).2.Accounts :=
  h.record hname BoundParameter.fits_bindParameter

theorem foldl {entries : List (String × List String)} {state : Value × BindingReport}
    (h : state.2.Accounts)
    (hn : (state.2.parameters.map (·.name) ++ entries.map (·.1)).Nodup) :
    (entries.foldl (Formwork.bindNext cx) state).2.Accounts := by
  induction entries generalizing state with
  | nil => exact h
  | cons p rest ih =>
    have hname : p.1 ∉ state.2.parameters.map (·.name) := fun hm =>
      (List.nodup_append.mp hn).2.2 _ hm _ (List.mem_cons_self ..) rfl
    have hnames : (Formwork.bindNext cx state p).2.parameters.map (·.name) =
        state.2.parameters.map (·.name) ++ [p.1] := List.map_append
    refine ih (h.bindNext hname) ?_
    rw [hnames, List.append_assoc]
    exact hn

end Accounts

theorem accounts_bindParameters (cx : BindContext) (skip : String → Bool)
    {ps : List (String × List String)} (hn : (ps.map (·.1)).Nodup) (bean : Value) :
    (bindParameters cx skip ps bean).2.Accounts := by
  refine Accounts.empty.foldl ?_
  exact hn.sublist (List.filter_sublist.map _)

/-! ## Groups -/

theorem isBound_eq (r : BindingReport) (name : String) :
    r.isBound name = (r.find? name).any (·.account == .bound) := by
  unfold isBound BoundParameter.account BindingOutcome.account
  cases r.find? name with
  | none => rfl
  | some p =>
    simp only [Option.any_some]
    cases p.outcome <;> rfl

theorem conversionFailed_eq (r : BindingReport) (name : String) :
    r.conversionFailed name = (r.find? name).any (·.account == .failed) := by
  unfold conversionFailed BoundParameter.account BindingOutcome.account
  cases r.find? name with
  | none => rfl
  | some p =>
    simp only [Option.any_some]
    cases p.outcome <;> rfl

theorem count_boundNames (r : BindingReport) (name : String) :
    r.boundNames.count name =
      (r.parameters.filter (·.name == name)).countP (·.account == .bound) := by
  unfold boundNames List.count BoundParameter.account BindingOutcome.account
  rw [List.countP_filterMap, List.countP_filter]
  refine List.countP_congr fun p _ => ?_
  cases p.outcome <;> simp

namespace Accounts

/-- The errors under a name are those of the parameters of that name. -/
theorem under_errors (h : r.Accounts) (name : String) :
    r.errors.under name =
      ((r.parameters.filter (·.name == name)).flatMap BoundParameter.errors).map (·.2) := by
  have hown : ∀ p ∈ r.parameters, ∀ e ∈ p.errors, e.1 = p.name :=
    fun p _ e he => (BoundParameter.name_of_mem_errors he).1
  rw [h.errors_eq, FieldErrors.under_addAll, filter_flatMap_key hown, List.map_flatMap,
    List.map_flatMap]
  simp only [BoundParameter.map_inField_errors]
  rfl

theorem mem_fields_iff (h : r.Accounts) (name : String) :
    name ∈ r.errors.fields ↔ r.errors.under name ≠ [] := by
  have hunder : r.errors.under name ≠ [] ↔
      ∃ p ∈ r.parameters, p.name = name ∧ p.errors ≠ [] := by
    rw [h.under_errors, ne_eq, List.map_eq_nil_iff, List.flatMap_eq_nil_iff]
    simp only [List.mem_filter, beq_iff_eq, not_forall, and_imp, exists_prop]
  rw [hunder, h.errors_eq, FieldErrors.mem_fields_addAll_iff]
  constructor
  · rintro (hnone | ⟨e, he, rfl⟩)
    · cases hnone
    · obtain ⟨p, hp, he⟩ := List.mem_flatMap.mp he
      exact ⟨p, hp, (BoundParameter.name_of_mem_errors he).1.symm, List.ne_nil_of_mem he⟩
  · rintro ⟨p, hp, rfl, hne⟩
    obtain ⟨e, he⟩ := List.exists_mem_of_ne_nil _ hne
    exact .inr ⟨e, List.mem_flatMap.mpr ⟨p, hp, he⟩, (BoundParameter.name_of_mem_errors he).1⟩

/-- The refusals that name a parameter are those of the parameters of that name. -/
theorem countP_refusals (h : r.Accounts) (name : String) :
    r.refusals.countP (·.path == name) =
      (r.parameters.filter (·.name == name)).countP (·.account == .refused) := by
  unfold refusals
  rw [List.countP_filterMap, List.countP_filter]
  refine List.countP_congr fun p hp => ?_
  have hfits := h.fits p hp
  unfold BoundParameter.Fits at hfits
  unfold BoundParameter.account BindingOutcome.account
  cases ho : p.outcome with
  | bound numbers => simp
  | failed failures => simp
  | refused e =>
    rw [ho] at hfits
    simp [hfits]

/-- A name is counted in the group of the one parameter that has it, or in none. -/
theorem counted_of_filter (h : r.Accounts) (found : Option BoundParameter)
    (hf : r.parameters.filter (·.name == name) = found.toList) :
    r.Counted name (found.map BoundParameter.account) := by
  have hfind : r.find? name = found := by
    unfold find?
    rw [← List.head?_filter, hf]
    cases found <;> rfl
  have hcount := count_boundNames r name
  have hrefusals := h.countP_refusals name
  have hunder := h.under_errors name
  have hfields := h.mem_fields_iff name
  rw [hf] at hcount hrefusals hunder
  rw [hunder] at hfields
  cases found with
  | none =>
    exact
      { isBound := by simp [isBound_eq, hfind]
        boundNames := by simpa using hcount
        conversionFailed := by simp [conversionFailed_eq, hfind]
        fields := by simpa using hfields
        errors := by simp [hunder]
        named := by simp [hunder]
        refusals := by simpa using hrefusals }
  | some p =>
    obtain ⟨hp, hname⟩ : p ∈ r.parameters ∧ p.name = name := by
      have hmem : p ∈ r.parameters.filter (·.name == name) := hf ▸ List.mem_singleton_self p
      simpa using hmem
    have herrors := BoundParameter.errors_ne_nil_iff (h.fits p hp)
    have hnamed : ∀ e ∈ r.errors.under name, e.field = some name := by
      intro e he
      rw [hunder] at he
      obtain ⟨x, hx, rfl⟩ := List.mem_map.mp he
      have hx : x ∈ p.errors := by simpa using hx
      rw [← hname]
      exact (BoundParameter.name_of_mem_errors hx).2
    exact
      { isBound := by simp [isBound_eq, hfind]
        boundNames := by simpa using hcount
        conversionFailed := by simp [conversionFailed_eq, hfind]
        fields := by simpa [herrors] using hfields
        errors := by simpa [hunder] using herrors
        named := hnamed
        refusals := by simpa using hrefusals }

theorem counted (h : r.Accounts) (hp : p ∈ r.parameters) : r.Counted p.name (some p.account) :=
  h.counted_of_filter (some p) (filter_key_of_nodup h.nodup hp)

theorem counted_none (h : r.Accounts) (hname : name ∉ r.parameters.map (·.name)) :
    r.Counted name none := by
  have hnone : r.parameters.filter (·.name == name) = [] := List.filter_eq_nil_iff.mpr
    fun p hp he => hname (List.mem_map.mpr ⟨p, hp, beq_iff_eq.mp he⟩)
  exact h.counted_of_filter none hnone

end Accounts

theorem isBound_of_numbers (h : r.numbers name ≠ []) : r.isBound name = true := by
  unfold numbers at h
  unfold isBound
  cases hf : r.find? name with
  | none => simp [hf] at h
  | some p =>
    cases ho : p.outcome with
    | bound numbers => simp [ho]
    | failed failures => simp [hf, ho] at h
    | refused e => simp [hf, ho] at h

end BindingReport

/-! ## The report on a request -/

section Request

variable {ps : List (String × List String)} {skip : String → Bool}

theorem map_name_parameters (skip : String → Bool) (ps : List (String × List String))
    (bean : Value) : (bindParameters cx skip ps bean).2.parameters.map (·.name) =
      (ps.filter fun p => !skip p.1).map (·.1) := by
  rw [parameters_bindParameters, List.map_map]
  exact names_bindingSteps _ _

/-- The steps behind some parameters start with the bean after these. -/
theorem bindingSteps_append (front rest : List (String × List String)) (bean : Value) :
    bindingSteps cx (front ++ rest) bean =
      bindingSteps cx front bean ++ bindingSteps cx rest (bindAll cx front bean) := by
  induction front generalizing bean with
  | nil => rfl
  | cons p front ih =>
    rw [List.cons_append, bindingSteps, bindingSteps]
    exact congrArg (List.cons _) (ih _)

/-- A parameter is reported with what came of it at the bean after those in front of it. -/
theorem mem_parameters_of_split {p : String × List String}
    {front back : List (String × List String)}
    (h : (ps.filter fun p => !skip p.1) = front ++ p :: back) :
    ⟨p.1, p.2.map Text.trim, (bindParameter cx p.1 (p.2.map Text.trim) (bindAll cx front bean)).2⟩ ∈
      (bindParameters cx skip ps bean).2.parameters := by
  rw [parameters_bindParameters, h, bindingSteps_append, List.map_append, bindingSteps,
    List.map_cons]
  exact List.mem_append_right _ (List.mem_cons_self ..)

theorem get?_submitted_iff (hn : (ps.map (·.1)).Nodup) :
    (bindParameters cx skip ps bean).2.submitted.get? name = some values ↔
      ∃ raw, (name, raw) ∈ ps ∧ skip name = false ∧ values = raw.map Text.trim := by
  have hnodup := (BindingReport.accounts_bindParameters cx skip hn bean).nodup
  have hpairs : (bindParameters cx skip ps bean).2.parameters.map (fun p => (p.name, p.values)) =
      (ps.filter fun p => !skip p.1).map fun p => (p.1, p.2.map Text.trim) := by
    rw [parameters_bindParameters, List.map_map]
    exact pairs_bindingSteps _ _
  unfold BindingReport.submitted
  rw [NameMap.get?_ofList (by rwa [List.map_map]), hpairs]
  simp only [List.mem_map, List.mem_filter, Bool.not_eq_true', Prod.mk.injEq]
  constructor
  · rintro ⟨p, ⟨hp, hskip⟩, rfl, rfl⟩
    exact ⟨p.2, hp, hskip, rfl⟩
  · rintro ⟨raw, hraw, hskip, rfl⟩
    exact ⟨(name, raw), ⟨hraw, hskip⟩, rfl, rfl⟩

/-- **Accounting.** Each parameter that is not skipped is counted in exactly one group, that of what
came of it at the bean after the parameters in front of it: it was bound, or it failed and has its
errors under its name, or one refusal names it. Every other name is counted in none. The submitted
values are those of the parameters that are not skipped, trimmed, and there are numbers only of
parameters that were bound. -/
theorem counted_bindParameters (cx : BindContext) (skip : String → Bool)
    {ps : List (String × List String)} (hn : (ps.map (·.1)).Nodup) (bean : Value) :
    (∀ p ∈ ps, skip p.1 = false →
      ∃ front back, (ps.filter fun p => !skip p.1) = front ++ p :: back ∧
        (bindParameters cx skip ps bean).2.Counted p.1
          (some (bindParameter cx p.1 (p.2.map Text.trim) (bindAll cx front bean)).2.account)) ∧
    (∀ name, (∀ p ∈ ps, p.1 = name → skip name = true) →
      (bindParameters cx skip ps bean).2.Counted name none) ∧
    (∀ name values, (bindParameters cx skip ps bean).2.submitted.get? name = some values ↔
      ∃ raw, (name, raw) ∈ ps ∧ skip name = false ∧ values = raw.map Text.trim) ∧
    ∀ name, (bindParameters cx skip ps bean).2.numbers name ≠ [] →
      (bindParameters cx skip ps bean).2.isBound name = true := by
  have haccounts := BindingReport.accounts_bindParameters cx skip hn bean
  refine ⟨fun p hp hskip => ?_, fun name hname => haccounts.counted_none ?_,
    fun name values => get?_submitted_iff hn, fun name => BindingReport.isBound_of_numbers⟩
  · have hkept : p ∈ ps.filter fun p => !skip p.1 := List.mem_filter.mpr ⟨hp, by simp [hskip]⟩
    obtain ⟨front, back, hsplit⟩ := List.append_of_mem hkept
    exact ⟨front, back, hsplit, haccounts.counted (mem_parameters_of_split hsplit)⟩
  · intro hm
    rw [map_name_parameters] at hm
    obtain ⟨p, hp, rfl⟩ := List.mem_map.mp hm
    obtain ⟨hp, hskip⟩ := List.mem_filter.mp hp
    rw [hname p hp rfl] at hskip
    cases hskip

/-- In the parameters of an order, one text is no number, the event is skipped, and one name is no
property. -/
theorem counted_bindParameters_order :
    (bindParameters (Sample.bindContext .builtIn .us) (· == "save")
        (("nothing", [""]) :: orderParameters) newOrder).2.Counted "single" (some .failed) ∧
      (bindParameters (Sample.bindContext .builtIn .us) (· == "save")
        (("nothing", [""]) :: orderParameters) newOrder).2.Counted "save" none ∧
      (bindParameters (Sample.bindContext .builtIn .us) (· == "save")
        (("nothing", [""]) :: orderParameters) newOrder).2.Counted "nothing" (some .refused) ∧
      (bindParameters (Sample.bindContext .builtIn .us) (· == "save")
        (("nothing", [""]) :: orderParameters) newOrder).2.submitted.get? "single" =
          some ["x"] := by
  have hn : ((("nothing", [""]) :: orderParameters).map (·.1)).Nodup := by decide
  obtain ⟨hcounted, hnone, hsubmitted, -⟩ :=
    counted_bindParameters (Sample.bindContext .builtIn .us) (· == "save") hn newOrder
  obtain ⟨_, -, -, hsingle⟩ := hcounted ("single", ["x"]) (by decide) (by decide)
  obtain ⟨_, -, -, hnothing⟩ := hcounted ("nothing", [""]) (by decide) (by decide)
  generalize BindingOutcome.account _ = g at hsingle
  generalize BindingOutcome.account _ = g' at hnothing
  obtain rfl : g = .failed := Option.some.inj (hsingle.conversionFailed.mp rfl)
  obtain rfl : g' = .refused := by
    have hone := hnothing.refusals
    cases g' with
    | refused => rfl
    | bound => cases hone
    | failed => cases hone
  refine ⟨hsingle, hnone "save" (by decide), hnothing, (hsubmitted _ _).mpr ?_⟩
  exact ⟨["x"], by decide, by decide, by decide +kernel⟩

end Request

end Formwork
