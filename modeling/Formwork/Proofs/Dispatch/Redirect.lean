import Formwork.Http.Server
import Formwork.Proofs.Dispatch.Redisplay
import Formwork.Proofs.Http.Address
import Formwork.Proofs.Routing.Reverse

/-!
# Redirects to an event

- **Parameters** (`Request.get?_ofPairs`): a name has the values of all its pairs.
- **Events** (`Action.resolveEvent_eq_ok_iff`): what a request means that does not state its event.
  When the parameters speak of one event only, it is that event without the suffix of an image
  button, or the default (`Action.means_iff_of_quiet`).
- **Redirects** (`Router.redirectTo?_reaches_iff`): the address of a redirect to an event is matched
  by the action's own pattern, and its parameters are the event and what the pattern's own query
  gives. So the event is the one that the request means, unless its name ends like the name of an
  image button.
-/

namespace Formwork

/-! ## Parameters -/

namespace Request

theorem get?_foldl_addValues (pairs : List (String × List String)) (r : Request) (name : String) :
    (pairs.foldl (fun r p => r.addValues p.1 p.2) r).parameters.get? name =
      if (pairs.filter (·.1 == name)).isEmpty then r.parameters.get? name
      else some ((r.parameters.get? name).getD [] ++
        (pairs.filter (·.1 == name)).flatMap (·.2)) := by
  induction pairs generalizing r with
  | nil => rfl
  | cons p rest ih =>
    have hadd : (r.addValues p.1 p.2).parameters.get? name =
        if p.1 = name then some ((r.parameters.get? p.1).getD [] ++ p.2)
        else r.parameters.get? name := NameMap.get?_upsert ..
    rw [List.foldl_cons, ih, hadd]
    by_cases hn : p.1 = name
    · subst hn
      rw [List.filter_cons_of_pos (by simp), if_pos rfl]
      by_cases hrest : rest.filter (·.1 == p.1) = []
      · simp [hrest]
      · simp [hrest, List.append_assoc]
    · rw [List.filter_cons_of_neg (by simpa using hn), if_neg hn]

/-- The values of a name are those of its pairs in order. -/
theorem get?_ofPairs (path : String) (pairs : List (String × List String)) (name : String) :
    (ofPairs path pairs).parameters.get? name =
      if (pairs.filter (·.1 == name)).isEmpty then none
      else some ((pairs.filter (·.1 == name)).flatMap (·.2)) := by
  rw [ofPairs, get?_foldl_addValues]
  rfl

/-- The request for an address, without headers and without a body. -/
def ofTarget (t : RequestTarget) : Request := ({ target := t } : HttpRequest).toRequest

theorem get?_ofTarget (t : RequestTarget) (name : String) :
    (ofTarget t).parameters.get? name =
      if (t.pairs.filter (·.1 == name)).isEmpty then none
      else some ((t.pairs.filter (·.1 == name)).map (·.2)) := by
  have hpairs : ({ target := t } : HttpRequest).pairs = t.pairs := by
    simp [HttpRequest.pairs, HttpRequest.isForm, RequestTarget.pairs]
  have hof : (ofTarget t).parameters =
      (ofPairs t.path (t.pairs.map fun p => (p.1, [p.2]))).parameters := by
    rw [← hpairs]
    rfl
  have hfilter : (t.pairs.map fun p => (p.1, [p.2])).filter (·.1 == name) =
      (t.pairs.filter (·.1 == name)).map fun p => (p.1, [p.2]) := List.filter_map ..
  rw [hof, get?_ofPairs, hfilter, List.isEmpty_map, List.flatMap_map, List.map_eq_flatMap]

/-- A value of a parameter is that of a pair of the query or of the path. -/
theorem mem_pairs_of_mem_withCaptured {t : RequestTarget} {captured : List (String × String)}
    {name v : String} (h : v ∈ (((ofTarget t).withCaptured captured).get? name).getD []) :
    (name, v) ∈ t.pairs ++ captured := by
  rw [get?_withCaptured, get?_ofTarget] at h
  split at h
  · rw [Option.none_or] at h
    cases hf : NameMap.find name captured with
    | none => simp [hf] at h
    | some w =>
      obtain rfl : v = w := by simpa [hf] using h
      exact List.mem_append_right _ (NameMap.mem_of_find hf)
  · rw [Option.some_or, Option.getD_some] at h
    obtain ⟨⟨n, w⟩, hp, rfl⟩ := List.mem_map.mp h
    obtain ⟨hmem, hname⟩ := List.mem_filter.mp hp
    obtain rfl : n = name := by simpa using hname
    exact List.mem_append_left _ hmem

/-- The names are those of the pairs of the query and of the path. -/
theorem mem_names_withCaptured {t : RequestTarget} {captured : List (String × String)}
    {name : String} : name ∈ ((ofTarget t).withCaptured captured).names ↔
      ∃ p ∈ t.pairs ++ captured, p.1 = name := by
  have hquery : ((ofTarget t).parameters.get? name).isSome = true ↔ ∃ p ∈ t.pairs, p.1 = name := by
    have hnil : t.pairs.filter (·.1 == name) = [] ↔ ¬ ∃ p ∈ t.pairs, p.1 = name := by
      rw [List.filter_eq_nil_iff]
      simp only [beq_iff_eq, not_exists, not_and]
    rw [get?_ofTarget]
    by_cases hp : t.pairs.filter (·.1 == name) = []
    · exact iff_of_false (by simp [hp]) (hnil.mp hp)
    · exact iff_of_true (by simp [hp]) (not_not.mp fun hno => hp (hnil.mpr hno))
  have hpath : ((NameMap.find name captured).map ([·])).isSome = true ↔
      ∃ p ∈ captured, p.1 = name := by
    rw [Option.isSome_map]
    exact NameMap.isSome_find_iff
  rw [NameMap.mem_names_iff, get?_withCaptured, Option.isSome_or, Bool.or_eq_true, hquery, hpath]
  simp only [List.mem_append, or_and_right, exists_or]

end Request

/-! ## Events -/

/-- In ascending order, what is found first is found at the least place. -/
theorem findSome?_eq_some_iff_of_ascending {α : Type} {f : String → Option α} {l : List String}
    (hl : l.Pairwise (· < ·)) {b : α} :
    l.findSome? f = some b ↔ ∃ n ∈ l, f n = some b ∧ ∀ n' ∈ l, n' < n → f n' = none := by
  rw [List.findSome?_eq_some_iff]
  constructor
  · rintro ⟨front, n, back, rfl, hn, hfront⟩
    obtain ⟨-, hback, -⟩ := List.pairwise_append.mp hl
    refine ⟨n, by simp, hn, fun n' hn' hlt => ?_⟩
    rcases List.mem_append.mp hn' with hn' | hn'
    · exact hfront n' hn'
    · rcases List.mem_cons.mp hn' with rfl | hn'
      · exact absurd hlt (String.lt_irrefl _)
      · exact absurd hlt (String.lt_asymm ((List.pairwise_cons.mp hback).1 n' hn'))
  · rintro ⟨n, hmem, hn, hbefore⟩
    obtain ⟨front, back, rfl⟩ := List.append_of_mem hmem
    obtain ⟨-, -, hless⟩ := List.pairwise_append.mp hl
    exact ⟨front, n, back, rfl, hn, fun n' hn' =>
      hbefore n' (List.mem_append_left _ hn') (hless n' hn' n (List.mem_cons_self ..))⟩

namespace Action

variable {a : Action} {parameters : NameMap (List String)} {event eventParameter : String}
  {h : EventHandler}

/-- The event that the event parameter gives: its first value that is not blank. -/
def given? (parameters : NameMap (List String)) (eventParameter : String) : Option String :=
  (((parameters.get? eventParameter).getD []).map Text.trim).find? fun v => !v.isEmpty

/-- The name of a parameter gives the event, and no name that comes before it gives one. -/
def Named (a : Action) (parameters : NameMap (List String)) (event : String) : Prop :=
  ∃ n ∈ parameters.names, eventName n = event ∧
    ∀ n' ∈ parameters.names, n' < n → a.handler? (eventName n') = none

/-- No name of a parameter gives an event. -/
def Unnamed (a : Action) (parameters : NameMap (List String)) : Prop :=
  ∀ n ∈ parameters.names, a.handler? (eventName n) = none

/-- The parameters give the event of the handler; or they give none, and it is the event that is
named, or none is and it is the default. -/
def Means (a : Action) (parameters : NameMap (List String)) (eventParameter : String)
    (h : EventHandler) : Prop :=
  given? parameters eventParameter = some h.event ∨
    (given? parameters eventParameter = none ∧ (a.Named parameters h.event ∨
      (a.Unnamed parameters ∧ a.defaultHandler? = some h)))

theorem event_of_handler? (hh : a.handler? event = some h) : h.event = event := by
  unfold handler? at hh
  simpa using List.find?_some hh

theorem handler?_eq_some_iff (hh : a.handler? h.event = some h) :
    a.handler? event = some h ↔ event = h.event := by
  constructor
  · exact fun he => (event_of_handler? he).symm
  · rintro rfl
    exact hh

/-- The event of a request that does not state its event, and whose path ends with the pattern. -/
theorem resolveEvent_eq_ok_iff (hh : a.handler? h.event = some h) :
    a.resolveEvent none parameters none eventParameter = .ok h ↔
      a.Means parameters eventParameter h := by
  have hnames : parameters.names.Pairwise (· < ·) := List.pairwise_map.mpr parameters.ascending
  have hnamed : (parameters.names.findSome? fun n => a.handler? (eventName n)) = some h ↔
      a.Named parameters h.event := by
    rw [findSome?_eq_some_iff_of_ascending hnames]
    simp only [handler?_eq_some_iff hh, Named]
  have hunnamed : (parameters.names.findSome? fun n => a.handler? (eventName n)) = none ↔
      a.Unnamed parameters := List.findSome?_eq_none_iff
  unfold Means
  cases hgiven : given? parameters eventParameter with
  | some event =>
    simp only [reduceCtorEq, false_and, or_false, Option.some.injEq, ← handler?_eq_some_iff hh]
    unfold given? at hgiven
    simp only [resolveEvent, hgiven, Option.none_or]
    cases a.handler? event <;> simp
  | none =>
    simp only [reduceCtorEq, false_or, true_and, ← hnamed, ← hunnamed, ← Option.or_eq_some_iff]
    unfold given? at hgiven
    simp only [resolveEvent, hgiven, Option.bind_none, Option.or_none]
    cases (parameters.names.findSome? fun n => a.handler? (eventName n)).or a.defaultHandler? <;>
      simp

/-- A parameter that does not speak of another event than the given one: neither with its name nor
as the parameter that gives the event. -/
def Quiet (a : Action) (event eventParameter : String) (p : String × String) : Prop :=
  (p.1 = event ∨ a.handler? (eventName p.1) = none) ∧
    (p.1 = eventParameter → Text.isBlank p.2 = true)

/-- Where the parameters speak of one event only, they mean it if its name is not changed by leaving
out the suffix of an image button, or if it is the default and they name none. -/
theorem means_iff_of_quiet {t : RequestTarget} {captured : List (String × String)}
    (hq : ∀ p ∈ t.pairs ++ captured, a.Quiet h.event eventParameter p)
    (he : ∃ p ∈ t.pairs ++ captured, p.1 = h.event) (hh : a.handler? h.event = some h) :
    a.Means ((Request.ofTarget t).withCaptured captured) eventParameter h ↔
      eventName h.event = h.event ∨
        (a.handler? (eventName h.event) = none ∧ a.defaultHandler? = some h) := by
  have hnone : given? ((Request.ofTarget t).withCaptured captured) eventParameter = none := by
    rw [given?, List.find?_eq_none]
    intro v hv
    obtain ⟨w, hw, rfl⟩ := List.mem_map.mp hv
    have hblank := (hq _ (Request.mem_pairs_of_mem_withCaptured hw)).2 rfl
    simp [Text.isEmpty_trim, hblank]
  have hmem : h.event ∈ ((Request.ofTarget t).withCaptured captured).names :=
    Request.mem_names_withCaptured.mpr he
  have hothers : ∀ n ∈ ((Request.ofTarget t).withCaptured captured).names,
      n = h.event ∨ a.handler? (eventName n) = none := by
    intro n hn
    obtain ⟨p, hp, rfl⟩ := Request.mem_names_withCaptured.mp hn
    exact (hq p hp).1
  have hnamed : a.Named ((Request.ofTarget t).withCaptured captured) h.event ↔
      eventName h.event = h.event := by
    constructor
    · rintro ⟨n, hn, hevent, -⟩
      rcases hothers n hn with rfl | hno
      · exact hevent
      · rw [hevent, hh] at hno
        cases hno
    · intro hevent
      refine ⟨h.event, hmem, hevent, fun n hn hlt => (hothers n hn).resolve_left ?_⟩
      rintro rfl
      exact String.lt_irrefl _ hlt
  have hunnamed : a.Unnamed ((Request.ofTarget t).withCaptured captured) ↔
      a.handler? (eventName h.event) = none := by
    refine ⟨fun hall => hall _ hmem, fun hno n hn => ?_⟩
    rcases hothers n hn with rfl | hn
    · exact hno
    · exact hn
  rw [Means, hnone, hnamed, hunnamed]
  simp

end Action

/-! ## Redirects -/

namespace Router

/-- A path has the same segments without its query. -/
theorem pathSegments_ofPath (text : String) :
    pathSegments (RequestTarget.ofPath text.toList).path = pathSegments text := by
  have hbare : (text.toList.takeWhile (· ≠ '?')).takeWhile (fun c => c != '?' && c != '#') =
      text.toList.takeWhile fun c => c != '?' && c != '#' := by
    rw [List.takeWhile_takeWhile]
    congr 1
    funext c
    rw [Bool.eq_iff_iff, decide_eq_true_iff]
    refine and_iff_left_of_imp fun hc => decide_eq_true ?_
    rw [Bool.and_eq_true, bne_iff_ne] at hc
    exact hc.1
  by_cases hempty : text.toList.takeWhile (· ≠ '?') = []
  · have hslash : pathSegments "/" = [] := by decide +kernel
    rw [hempty, List.takeWhile_nil] at hbare
    simp only [RequestTarget.ofPath, hempty, List.isEmpty_nil, ↓reduceIte, hslash]
    simp [pathSegments, ← hbare]
  · simp only [RequestTarget.ofPath, List.isEmpty_iff, hempty, ↓reduceIte]
    simp only [pathSegments, String.toList_ofList, hbare]

variable {r : Router} {actions : List Action}

theorem redirectTo?_eq (h : build actions = .ok r) {a : Action} (ha : a ∈ actions)
    (event : String) : r.redirectTo? a.id (some event) =
      some (.redirect { path := a.urlBinding, parameters := [(event, [""])] }) := by
  rw [redirectTo?, (urlFor?_eq_some_iff h).mpr ⟨a, ha, rfl, rfl⟩]
  rfl

/-- **Redirects to an event.** In a router that was built from actions, take the address of a
redirect to an event of an action and cut it at the first question mark. The path is matched by the
action's own pattern, with nothing left of it. The pairs of the query are those of the pattern's own
query, and then the event without a value; whatever the event is called, its name is read back. So
the event is reached iff the parameters mean it. If no other pair, and no captured value, speaks of
an event, they do iff its name does not end like the name of an image button, or else the event that
is left without that ending does not exist, and the event is the default. A fragment in the pattern
cuts the event off. -/
theorem redirectTo?_reaches_iff (h : build actions = .ok r) {a : Action} (ha : a ∈ actions)
    {event : String} {handler : EventHandler} (he : a.handler? event = some handler) :
    ∃ o m, r.redirectTo? a.id (some event) = some (.redirect o) ∧
      RequestTarget.ofText o.url = (if '#' ∈ a.urlBinding.toList
        then RequestTarget.ofText a.urlBinding else RequestTarget.ofPath o.url.toList) ∧
      (RequestTarget.ofPath o.url.toList).pairs =
        (RequestTarget.ofPath a.urlBinding.toList).pairs ++ [(event, "")] ∧
      r.match? (RequestTarget.ofPath o.url.toList).path = some m ∧
      m.binding.target = a.id ∧ m.binding.pattern.text = a.urlBinding ∧
      m.captured = m.binding.pattern.ownCaptures ∧ m.pathInfo = none ∧
      ∀ captured eventParameter,
        (a.resolveEvent none
            ((Request.ofTarget (.ofPath o.url.toList)).withCaptured captured) m.pathInfo
            eventParameter = .ok handler ↔
          a.Means ((Request.ofTarget (.ofPath o.url.toList)).withCaptured captured)
            eventParameter handler) ∧
        ((∀ p ∈ (RequestTarget.ofPath a.urlBinding.toList).pairs ++ captured,
            a.Quiet event eventParameter p) →
          (a.Means ((Request.ofTarget (.ofPath o.url.toList)).withCaptured captured)
              eventParameter handler ↔
            eventName event = event ∨
              (a.handler? (eventName event) = none ∧ a.defaultHandler? = some handler))) := by
  obtain rfl := Action.event_of_handler? he
  let o : Onward := { path := a.urlBinding, parameters := [(handler.event, [""])] }
  have hpairs : (RequestTarget.ofPath o.url.toList).pairs =
      (RequestTarget.ofPath a.urlBinding.toList).pairs ++ [(handler.event, "")] :=
    Onward.pairs_ofPath_url rfl
  have hpath : pathSegments (RequestTarget.ofPath o.url.toList).path =
      pathSegments a.urlBinding := by
    rw [Onward.path_ofPath_url rfl, pathSegments_ofPath]
  obtain ⟨b, hparse, hm⟩ := match?_urlBinding h ha hpath
  obtain ⟨hpattern, htarget⟩ := UrlBinding.parse_eq_ok_iff.mp hparse
  obtain ⟨hslash, htext, -, -⟩ := AddressPattern.parse_eq_ok_iff.mp hpattern
  refine ⟨o, _, redirectTo?_eq h ha handler.event, Onward.ofText_url rfl hslash, hpairs, hm,
    htarget, htext, rfl, rfl, fun captured eventParameter =>
      ⟨Action.resolveEvent_eq_ok_iff he, fun hquiet => ?_⟩⟩
  have hevent : a.Quiet handler.event eventParameter (handler.event, "") :=
    ⟨.inl rfl, fun _ => rfl⟩
  refine Action.means_iff_of_quiet ?_ ?_ he
  · rw [hpairs]
    intro p hp
    simp only [List.mem_append, List.mem_singleton] at hp hquiet
    rcases hp with (hp | rfl) | hp
    · exact hquiet p (.inl hp)
    · exact hevent
    · exact hquiet p (.inr hp)
  · exact ⟨(handler.event, ""), by simp [hpairs], rfl⟩

/-- A handler of an event. -/
def showsBasket (event : String) (isDefault : Bool) : EventHandler where
  event := event
  isDefault := isDefault
  run := fun bean cx => .ok (cx.redisplay, bean, cx)

/-- An action with an event whose name is no plain text, and one that is named like a button. -/
def basket : Action where
  bean := .ofFields "Basket" []
  urlBinding := "/basket"
  handlers := [showsBasket "view" true, showsBasket "empty & leave?" false,
    showsBasket "save.x" false]

/-- The first event is reached, and in place of the second one the default is. -/
theorem redirectTo?_reaches_iff_basket :
    ∃ r o o', build [basket] = .ok r ∧
      r.redirectTo? "Basket" (some "empty & leave?") = some (.redirect o) ∧
      basket.resolveEvent none (Request.ofTarget (.ofPath o.url.toList)).parameters none
        "_eventName" = .ok (showsBasket "empty & leave?" false) ∧
      r.redirectTo? "Basket" (some "save.x") = some (.redirect o') ∧
      basket.resolveEvent none (Request.ofTarget (.ofPath o'.url.toList)).parameters none
        "_eventName" ≠ .ok (showsBasket "save.x" false) := by
  obtain ⟨r, hb⟩ : ∃ r, build [basket] = .ok r := ⟨_, rfl⟩
  have hm : basket ∈ [basket] := List.mem_cons_self ..
  have hown : (RequestTarget.ofPath basket.urlBinding.toList).pairs ++ [] = [] := by
    decide +kernel
  have hquiet : ∀ event, ∀ p ∈ (RequestTarget.ofPath basket.urlBinding.toList).pairs ++ [],
      basket.Quiet event "_eventName" p := by
    intro event p hp
    rw [hown] at hp
    cases hp
  obtain ⟨o, m, ho, -, -, -, -, -, -, hinfo, hreached⟩ := redirectTo?_reaches_iff hb hm
    (rfl : basket.handler? "empty & leave?" = some (showsBasket "empty & leave?" false))
  obtain ⟨o', m', ho', -, -, -, -, -, -, hinfo', hreached'⟩ := redirectTo?_reaches_iff hb hm
    (rfl : basket.handler? "save.x" = some (showsBasket "save.x" false))
  rw [hinfo] at hreached
  rw [hinfo'] at hreached'
  obtain ⟨hplain, hmeans⟩ := hreached [] "_eventName"
  obtain ⟨hbutton, hmeans'⟩ := hreached' [] "_eventName"
  refine ⟨r, o, o', hb, ho, hplain.mpr ((hmeans (hquiet _)).mpr (.inl (by decide +kernel))), ho',
    fun h => ?_⟩
  rcases (hmeans' (hquiet _)).mp (hbutton.mp h) with he | ⟨-, hd⟩
  · exact absurd he (by decide +kernel)
  · have hevent := congrArg (Option.map EventHandler.event) hd
    exact absurd hevent (by decide +kernel)

end Router

end Formwork
