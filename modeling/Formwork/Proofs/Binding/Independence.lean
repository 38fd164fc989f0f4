import Formwork.Proofs.Binding.Report
import Formwork.Proofs.Property.Divergence
import Formwork.Proofs.Sample.Catalogue

/-!
# Parameters that do not interfere

Two parameters are apart at a bean if their paths diverge in it (`Apart`). The parameters of a
request that are pairwise apart may be bound in any order (`bindParameters_perm`): the bean
afterwards is the same, and what comes of each of them is what comes of it alone.

- **Two parameters** (`bindParameter_comm`, `apart_bindParameter`): binding one of them changes
  neither what comes of the other nor who is apart from whom.
- **All parameters** (`map_bindingSteps`, `bindAll_perm`): the same for a list, by induction.
-/

namespace Formwork

variable {cx : BindContext} {bean : Value} {a b c : String} {va vb vc values : List String}

/-- The paths that two names stand for diverge in a bean. A name that is no path is apart from all
others. -/
def Apart (cx : BindContext) (bean : Value) (a b : String) : Prop :=
  ∀ p q, PropertyPath.parse a = .ok p → PropertyPath.parse b = .ok q →
    Value.Diverge cx p.segments q.segments bean

theorem apart_of_parse {p q : PropertyPath} (ha : PropertyPath.parse a = .ok p)
    (hb : PropertyPath.parse b = .ok q) (h : Value.Diverge cx p.segments q.segments bean) :
    Apart cx bean a b := by
  intro p' q' hp hq
  rw [ha] at hp
  rw [hb] at hq
  cases hp
  cases hq
  exact h

theorem Apart.symm (h : Apart cx bean a b) : Apart cx bean b a :=
  fun p q hp hq => (h q p hq hp).symm

/-! ## Two parameters -/

theorem bindParameter_of_error {e : PathError} (h : PropertyPath.parse a = .error e) :
    bindParameter cx a values bean = (bean, .refused (.invalidPath a e)) := by
  simp only [bindParameter, h]

/-- The bean after a parameter is that after its path. -/
theorem bindParameter_fst {path : PropertyPath} (h : PropertyPath.parse a = .ok path) :
    (bindParameter cx a values bean).1 = (bean.bind cx values path.segments).1 := by
  simp only [bindParameter, h]
  split <;> next hb => rw [hb]

/-- A parameter that is not refused was bound. -/
theorem bind_of_not_refused {path : PropertyPath} (h : PropertyPath.parse a = .ok path)
    (hr : ∀ e, (bindParameter cx a values bean).2 ≠ .refused e) :
    ∃ w failures, bean.bind cx values path.segments = (w, .ok failures) := by
  simp only [bindParameter, h] at hr
  split at hr
  · exact absurd rfl (hr _)
  · next hb => exact ⟨_, _, hb⟩
  · next hb => exact ⟨_, _, hb⟩

/-- What is read after binding depends on what the path reached alone. -/
theorem resolve_eq_of_reach {path : List Segment} {other w x : Value}
    {f g : List ConversionFailure} (hreach : Value.reach cx path other = Value.reach cx path bean)
    (hb : bean.bind cx values path = (w, .ok f)) (ho : other.bind cx values path = (x, .ok g)) :
    x.resolve path = w.resolve path := by
  obtain ⟨leaf, changed, hl, ha, hw⟩ := Value.resolve_bind hb
  obtain ⟨leaf', changed', hl', ha', hx⟩ := Value.resolve_bind ho
  obtain rfl := Except.ok.inj (hl.symm.trans (hreach.symm.trans hl'))
  obtain ⟨rfl, -⟩ := Prod.mk.inj (Except.ok.inj (ha.symm.trans ha'))
  rw [hw, hx]

/-- What comes of a parameter depends on what its path gives and reaches alone. -/
theorem bindParameter_snd_eq {path : PropertyPath} {other : Value}
    (hp : PropertyPath.parse a = .ok path)
    (hresult : (other.bind cx values path.segments).2 = (bean.bind cx values path.segments).2)
    (hreach : Value.reach cx path.segments other = Value.reach cx path.segments bean) :
    (bindParameter cx a values other).2 = (bindParameter cx a values bean).2 := by
  simp only [bindParameter, hp]
  obtain ⟨w, result, hb⟩ : ∃ w result, bean.bind cx values path.segments = (w, result) :=
    ⟨_, _, rfl⟩
  obtain ⟨x, result', ho⟩ : ∃ x result', other.bind cx values path.segments = (x, result') :=
    ⟨_, _, rfl⟩
  rw [hb, ho] at hresult
  obtain rfl : result' = result := hresult
  rw [hb, ho]
  cases result' with
  | error e => rfl
  | ok failures =>
    cases failures with
    | nil => simp only [resolve_eq_of_reach hreach hb ho]
    | cons f rest => rfl

/-- What comes of a parameter is the same after another one that is apart from it, and the bean is
the same in both orders. -/
theorem bindParameter_comm (hc : cx.Sound) (h : Apart cx bean a b) :
    (bindParameter cx b vb (bindParameter cx a va bean).1).2 = (bindParameter cx b vb bean).2 ∧
      (bindParameter cx b vb (bindParameter cx a va bean).1).1 =
        (bindParameter cx a va (bindParameter cx b vb bean).1).1 := by
  cases ha : PropertyPath.parse a with
  | error e => simp only [bindParameter_of_error ha, and_self]
  | ok p =>
    cases hb : PropertyPath.parse b with
    | error e => simp only [bindParameter_of_error hb, and_self]
    | ok q =>
      have hd := h p q ha hb
      rw [bindParameter_fst ha, bindParameter_fst hb, bindParameter_fst ha, bindParameter_fst hb]
      obtain ⟨hresult, hbean⟩ := Value.descend_comm hc hd
      exact ⟨bindParameter_snd_eq hb hresult (Value.reach_descend hc hd), hbean⟩

/-- What a path reaches is the same after a parameter that is apart from it. -/
theorem reach_bindParameter (hc : cx.Sound) (h : Apart cx bean a b) {path : PropertyPath}
    (hp : PropertyPath.parse b = .ok path) :
    Value.reach cx path.segments (bindParameter cx a va bean).1 =
      Value.reach cx path.segments bean := by
  cases ha : PropertyPath.parse a with
  | error e => rw [bindParameter_of_error ha]
  | ok p =>
    rw [bindParameter_fst ha]
    exact Value.reach_descend hc (h p path ha hp)

/-- Binding a parameter that is apart from two others keeps these apart. -/
theorem apart_bindParameter (hc : cx.Sound) (h : Apart cx bean a b) (ha : Apart cx bean c a)
    (hb : Apart cx bean c b) : Apart cx (bindParameter cx c vc bean).1 a b := by
  intro p q hp hq
  cases hr : PropertyPath.parse c with
  | error e =>
    rw [bindParameter_of_error hr]
    exact h p q hp hq
  | ok r =>
    rw [bindParameter_fst hr]
    exact Value.diverge_descend hc (h p q hp hq) (ha r p hr hp) (hb r q hr hq)

/-! ## All parameters -/

/-- What comes of a parameter that is bound alone. -/
def boundAlone (cx : BindContext) (bean : Value) (p : String × List String) : BoundParameter :=
  ⟨p.1, p.2.map Text.trim, (bindParameter cx p.1 (p.2.map Text.trim) bean).2⟩

/-- The bean after parameters that are bound one after the other. -/
def bindAll (cx : BindContext) (entries : List (String × List String)) (bean : Value) : Value :=
  entries.foldl (fun bean p => (bindParameter cx p.1 (p.2.map Text.trim) bean).1) bean

variable {entries rest : List (String × List String)} {p : String × List String}

theorem bindAll_append_singleton :
    bindAll cx (entries ++ [p]) bean =
      (bindParameter cx p.1 (p.2.map Text.trim) (bindAll cx entries bean)).1 := by
  simp only [bindAll, List.foldl_append, List.foldl_cons, List.foldl_nil]

theorem foldl_bindNext_fst (entries : List (String × List String))
    (state : Value × BindingReport) :
    (entries.foldl (bindNext cx) state).1 = bindAll cx entries state.1 := by
  induction entries generalizing state with
  | nil => rfl
  | cons p rest ih => exact ih _

/-- Parameters that are pairwise apart are so after the first of them. -/
theorem pairwise_apart_tail (hc : cx.Sound)
    (h : (p :: rest).Pairwise fun a b => Apart cx bean a.1 b.1) :
    rest.Pairwise fun a b => Apart cx (bindParameter cx p.1 values bean).1 a.1 b.1 := by
  obtain ⟨hp, hrest⟩ := List.pairwise_cons.mp h
  exact hrest.imp_of_mem fun ha hb hab => apart_bindParameter hc hab (hp _ ha) (hp _ hb)

/-- What comes of each of the parameters is what comes of it alone. -/
theorem map_bindingSteps (hc : cx.Sound)
    (h : entries.Pairwise fun a b => Apart cx bean a.1 b.1) :
    (bindingSteps cx entries bean).map (·.2) = entries.map (boundAlone cx bean) := by
  induction entries generalizing bean with
  | nil => rfl
  | cons p rest ih =>
    have hp := (List.pairwise_cons.mp h).1
    rw [bindingSteps]
    simp only [List.map_cons]
    rw [ih (pairwise_apart_tail hc h)]
    refine congrArg (boundAlone cx bean p :: ·) (List.map_congr_left fun q hq => ?_)
    simp only [boundAlone, (bindParameter_comm hc (hp q hq)).1]

/-- The bean after the parameters does not depend on their order. -/
theorem bindAll_perm (hc : cx.Sound) {other : List (String × List String)}
    (hperm : entries.Perm other) (h : entries.Pairwise fun a b => Apart cx bean a.1 b.1) :
    bindAll cx entries bean = bindAll cx other bean := by
  induction hperm generalizing bean with
  | nil => rfl
  | cons p _ ih => exact ih (pairwise_apart_tail hc h)
  | swap p q l =>
    have hqp := (List.pairwise_cons.mp h).1 p (List.mem_cons_self ..)
    exact congrArg (bindAll cx l) (bindParameter_comm hc hqp).2
  | trans hleft _ ihl ihr =>
    exact (ihl h).trans (ihr (hleft.pairwise h fun hab => hab.symm))

/-- What comes of a parameter, and what its path reaches, is the same after others. -/
theorem bindParameter_bindAll (hc : cx.Sound) (values : List String)
    (h : (p :: entries).Pairwise fun a b => Apart cx bean a.1 b.1) :
    (bindParameter cx p.1 values (bindAll cx entries bean)).2 =
        (bindParameter cx p.1 values bean).2 ∧
      ∀ path, PropertyPath.parse p.1 = .ok path →
        Value.reach cx path.segments (bindAll cx entries bean) =
          Value.reach cx path.segments bean := by
  induction entries generalizing bean with
  | nil => exact ⟨rfl, fun _ _ => rfl⟩
  | cons e rest ih =>
    have hswapped := (List.Perm.swap e p rest).pairwise h fun hab => hab.symm
    have hep : Apart cx bean e.1 p.1 := (List.pairwise_cons.mp hswapped).1 p (List.mem_cons_self ..)
    obtain ⟨houtcome, hreach⟩ := ih (pairwise_apart_tail hc hswapped)
    refine ⟨houtcome.trans (bindParameter_comm hc hep).1, fun path hp => ?_⟩
    exact (hreach path hp).trans (reach_bindParameter hc hep hp)

/-- What is read at the path of a parameter after all of them is what is read after it alone. -/
theorem resolve_bindAll (hc : cx.Sound) (hp : p ∈ entries)
    (h : entries.Pairwise fun a b => Apart cx bean a.1 b.1) {path : PropertyPath}
    (hpath : PropertyPath.parse p.1 = .ok path)
    (hr : ∀ e, (boundAlone cx bean p).outcome ≠ .refused e) :
    (bindAll cx entries bean).resolve path.segments =
      (bindParameter cx p.1 (p.2.map Text.trim) bean).1.resolve path.segments := by
  -- The parameter may as well come last.
  obtain ⟨front, back, rfl⟩ := List.append_of_mem hp
  have hlast : (front ++ p :: back).Perm ((front ++ back) ++ [p]) := by
    rw [List.append_assoc]
    exact List.Perm.append_left front (List.perm_append_singleton p back).symm
  rw [bindAll_perm hc hlast h]
  have hfirst := List.perm_middle.pairwise h fun hab => hab.symm
  obtain ⟨houtcome, hreach⟩ := bindParameter_bindAll hc (p.2.map Text.trim) hfirst
  obtain ⟨w, f, hb⟩ := bind_of_not_refused hpath hr
  obtain ⟨x, g, ho⟩ := bind_of_not_refused hpath fun e he => hr e (houtcome.symm.trans he)
  rw [bindAll_append_singleton, bindParameter_fst hpath, bindParameter_fst hpath, hb, ho]
  exact resolve_eq_of_reach (hreach path hpath) hb ho

/-! ## Errors -/

namespace FieldErrors

variable {es : FieldErrors} {field other : String}

theorem append_comm (h : field ≠ other) (l m : List FieldError) :
    (es.append field l).append other m = (es.append other m).append field l := by
  refine congrArg FieldErrors.mk (NameMap.ext_get? fun name => ?_)
  simp only [append, NameMap.get?_upsert]
  grind

theorem add_addAll_comm {errors : List (String × FieldError)} (h : ∀ e ∈ errors, field ≠ e.1)
    (e : FieldError) : (es.add field e).addAll errors = (es.addAll errors).add field e := by
  induction errors generalizing es with
  | nil => rfl
  | cons x rest ih =>
    obtain ⟨hx, hrest⟩ := List.forall_mem_cons.mp h
    have hswap : (es.add field e).add x.1 x.2 = (es.add x.1 x.2).add field e := append_comm hx _ _
    show ((es.add field e).add x.1 x.2).addAll rest = _
    rw [hswap, ih hrest]
    rfl

/-- Errors of different fields may be added in any order. -/
theorem addAll_comm {l m : List (String × FieldError)} (h : ∀ a ∈ l, ∀ b ∈ m, a.1 ≠ b.1) :
    (es.addAll l).addAll m = (es.addAll m).addAll l := by
  induction l generalizing es with
  | nil => rfl
  | cons x rest ih =>
    obtain ⟨hx, hrest⟩ := List.forall_mem_cons.mp h
    show ((es.add x.1 x.2).addAll rest).addAll m = ((es.addAll m).add x.1 x.2).addAll rest
    rw [ih hrest, add_addAll_comm hx]

end FieldErrors

/-- A parameter with errors was bound, and the errors are under its name. -/
theorem bind_of_mem_errors {x : String × FieldError} (h : x ∈ (boundAlone cx bean p).errors) :
    x.1 = p.1 ∧ ∃ path w failures, PropertyPath.parse p.1 = .ok path ∧
      bean.bind cx (p.2.map Text.trim) path.segments = (w, .ok failures) := by
  have hr : ∀ e, (boundAlone cx bean p).outcome ≠ .refused e := by
    intro e he
    rw [BoundParameter.errors, he] at h
    cases h
  cases hpath : PropertyPath.parse p.1 with
  | error e => exact absurd (congrArg Prod.snd (bindParameter_of_error hpath)) (hr _)
  | ok path =>
    obtain ⟨w, failures, hb⟩ := bind_of_not_refused hpath hr
    refine ⟨?_, path, w, failures, rfl, hb⟩
    unfold BoundParameter.errors at h
    split at h
    · obtain ⟨f, -, rfl⟩ := List.mem_map.mp h
      rfl
    · cases h

theorem foldl_bindNext_errors (entries : List (String × List String))
    (state : Value × BindingReport) :
    (entries.foldl (bindNext cx) state).2.errors =
      ((bindingSteps cx entries state.1).map (·.2)).foldl (fun es p => es.addAll p.errors)
        state.2.errors := by
  induction entries generalizing state with
  | nil => rfl
  | cons p rest ih =>
    rw [List.foldl_cons, ih]
    simp only [bindNext, bindingSteps, List.map_cons, List.foldl_cons, BindingReport.record_errors]

variable {q : String × List String}

/-- Two parameters that are apart have no errors under the same name: a path does not diverge from
itself where it can be bound. -/
theorem ne_of_mem_errors (h : Apart cx bean p.1 q.1) :
    ∀ x ∈ (boundAlone cx bean p).errors, ∀ y ∈ (boundAlone cx bean q).errors, x.1 ≠ y.1 := by
  intro x hx y hy hxy
  obtain ⟨hxp, path, w, failures, hpath, hb⟩ := bind_of_mem_errors hx
  obtain ⟨hyq, -⟩ := bind_of_mem_errors hy
  rw [← hyq, ← hxy, hxp] at h
  obtain ⟨e, he⟩ := Value.exists_error_of_diverge (h path path hpath hpath)
  cases he.symm.trans (congrArg Prod.snd hb)

/-- The errors of parameters that are pairwise apart do not depend on their order. -/
theorem foldl_errors_perm {other : List (String × List String)} (hperm : entries.Perm other)
    (h : entries.Pairwise fun a b => Apart cx bean a.1 b.1) (es : FieldErrors) :
    (entries.map (boundAlone cx bean)).foldl (fun es p => es.addAll p.errors) es =
      (other.map (boundAlone cx bean)).foldl (fun es p => es.addAll p.errors) es := by
  rw [List.foldl_map, List.foldl_map]
  have hcomm : ∀ p q, Apart cx bean p.1 q.1 → ∀ es : FieldErrors,
      (es.addAll (boundAlone cx bean p).errors).addAll (boundAlone cx bean q).errors =
        (es.addAll (boundAlone cx bean q).errors).addAll (boundAlone cx bean p).errors :=
    fun p q hpq es => FieldErrors.addAll_comm (ne_of_mem_errors hpq)
  refine hperm.foldl_eq' (fun p hp q hq es => ?_) es
  exact (h.imp (hcomm _ _)).forall_of_forall_of_flip (fun _ _ _ => rfl)
    (h.imp fun hpq es => (hcomm _ _ hpq es).symm) hp hq es

variable {skip : String → Bool}

theorem bindParameters_fst (skip : String → Bool) (entries : List (String × List String))
    (bean : Value) : (bindParameters cx skip entries bean).1 =
      bindAll cx (entries.filter fun p => !skip p.1) bean := foldl_bindNext_fst _ _

theorem parameters_of_apart (hc : cx.Sound)
    (h : (entries.filter fun p => !skip p.1).Pairwise fun a b => Apart cx bean a.1 b.1) :
    (bindParameters cx skip entries bean).2.parameters =
      (entries.filter fun p => !skip p.1).map (boundAlone cx bean) := by
  rw [parameters_bindParameters, map_bindingSteps hc h]

theorem errors_of_apart (hc : cx.Sound)
    (h : (entries.filter fun p => !skip p.1).Pairwise fun a b => Apart cx bean a.1 b.1) :
    (bindParameters cx skip entries bean).2.errors =
      ((entries.filter fun p => !skip p.1).map (boundAlone cx bean)).foldl
        (fun es p => es.addAll p.errors) .empty := by
  rw [bindParameters, foldl_bindNext_errors, map_bindingSteps hc h]

/-- **Independence.** Parameters whose paths diverge from each other may be bound in any order. The
bean afterwards is the same, and what comes of each of them is what comes of it alone: the value
that is read at its path, its numbers, the errors of its conversion, or that it is refused. -/
theorem bindParameters_perm (hc : cx.Sound) (skip : String → Bool)
    {ps qs : List (String × List String)} (hperm : qs.Perm ps)
    (h : (ps.filter fun p => !skip p.1).Pairwise fun a b => Apart cx bean a.1 b.1) :
    (bindParameters cx skip qs bean).1 = (bindParameters cx skip ps bean).1 ∧
      (bindParameters cx skip qs bean).2.parameters =
        (qs.filter fun p => !skip p.1).map (boundAlone cx bean) ∧
      (bindParameters cx skip qs bean).2.errors = (bindParameters cx skip ps bean).2.errors ∧
      (bindParameters cx skip qs bean).2.refusals.Perm
        (bindParameters cx skip ps bean).2.refusals ∧
      ∀ p ∈ qs, skip p.1 = false → ∀ path, PropertyPath.parse p.1 = .ok path →
        (∀ e, (boundAlone cx bean p).outcome ≠ .refused e) →
        (bindParameters cx skip qs bean).1.resolve path.segments =
          (bindParameter cx p.1 (p.2.map Text.trim) bean).1.resolve path.segments := by
  have hfilter := hperm.filter fun p => !skip p.1
  have hq := hfilter.symm.pairwise h fun hab => hab.symm
  refine ⟨?_, parameters_of_apart hc hq, ?_, ?_, fun p hp hskip path hpath hr => ?_⟩
  · rw [bindParameters_fst, bindParameters_fst, bindAll_perm hc hfilter hq]
  · rw [errors_of_apart hc hq, errors_of_apart hc h, foldl_errors_perm hfilter hq]
  · rw [BindingReport.refusals, BindingReport.refusals, parameters_of_apart hc hq,
      parameters_of_apart hc h]
    exact (hfilter.map _).filterMap _
  · rw [bindParameters_fst]
    exact resolve_bindAll hc (List.mem_filter.mpr ⟨hp, by simp [hskip]⟩) hq hpath hr

/-- A new order. -/
def newOrder : Value := .bean Sample.order.descriptor (Sample.order.fields?.getD [])

/-- Two positions of an order, a number that is none, and the event. -/
def orderParameters : List (String × List String) :=
  [("items[1].name", ["Pen"]), ("items[0].quantity", ["2"]), ("save", [""]), ("single", ["x"])]

/-- The parameters of an order without the event, bound from the last to the first. -/
theorem bindParameters_perm_order :
    (bindParameters (Sample.bindContext .builtIn .us) (· == "save") orderParameters.reverse
        newOrder).1 =
      (bindParameters (Sample.bindContext .builtIn .us) (· == "save") orderParameters
        newOrder).1 ∧
      (bindParameters (Sample.bindContext .builtIn .us) (· == "save") orderParameters.reverse
        newOrder).2.parameters =
      [boundAlone (Sample.bindContext .builtIn .us) newOrder ("single", ["x"]),
        boundAlone (Sample.bindContext .builtIn .us) newOrder ("items[0].quantity", ["2"]),
        boundAlone (Sample.bindContext .builtIn .us) newOrder ("items[1].name", ["Pen"])] ∧
      (bindParameters (Sample.bindContext .builtIn .us) (· == "save") orderParameters.reverse
        newOrder).1.resolve [.property "items", .index "0", .property "quantity"] =
        some (.present (.scalar (.integer .nat32 2))) := by
  have hnames : Apart (Sample.bindContext .builtIn .us) newOrder "items[1].name"
      "items[0].quantity" :=
    apart_of_parse (p := ⟨"items[1].name", [.property "items", .index "1", .property "name"]⟩)
      (q := ⟨"items[0].quantity", [.property "items", .index "0", .property "quantity"]⟩) rfl rfl
      (.deeper rfl rfl (.here (Value.not_sameChild_of_address rfl rfl (by decide))))
  have hname : Apart (Sample.bindContext .builtIn .us) newOrder "items[1].name" "single" :=
    apart_of_parse (p := ⟨"items[1].name", [.property "items", .index "1", .property "name"]⟩)
      (q := ⟨"single", [.property "single"]⟩) rfl rfl
      (.here (Value.not_sameChild_of_address rfl rfl (by decide)))
  have hquantity : Apart (Sample.bindContext .builtIn .us) newOrder "items[0].quantity" "single" :=
    apart_of_parse
      (p := ⟨"items[0].quantity", [.property "items", .index "0", .property "quantity"]⟩)
      (q := ⟨"single", [.property "single"]⟩) rfl rfl
      (.here (Value.not_sameChild_of_address rfl rfl (by decide)))
  have hpairs : (orderParameters.filter fun p => !(p.1 == "save")).Pairwise fun a b =>
      Apart (Sample.bindContext .builtIn .us) newOrder a.1 b.1 := by
    simp [orderParameters, hnames, hname, hquantity]
  obtain ⟨hbean, hparameters, -, -, hread⟩ := bindParameters_perm
    (Sample.sound_bindContext .builtIn .us) (· == "save") (List.reverse_perm orderParameters) hpairs
  refine ⟨hbean, hparameters, ?_⟩
  rw [hread ("items[0].quantity", ["2"]) (by simp [orderParameters]) (by decide)
    ⟨"items[0].quantity", [.property "items", .index "0", .property "quantity"]⟩ rfl
    (fun e he => nomatch he)]
  rfl

end Formwork
