import Formwork.Proofs.Append
import Formwork.Proofs.Dispatch.Exceptions
import Formwork.Proofs.Dispatch.Stages

/-!
# Who answers to a failed request

- **Turns** (`handle_of_offer`): a handler that has an answer to a cause gives it, unless another
  one answers whose turn comes sooner: to a cause further inside, or to the same cause with a
  smaller priority, or with the same one and registered in front of it. A handler that declines all
  causes makes no difference (`handle_without`).
- **Types** (`answered_by_type`): what a handler of an event fails with is among the causes, so that
  it can be handled by its type. A routing error is not among them: it can be handled only as a
  dispatch error.
-/

namespace Formwork

/-- A handler of the errors of one type, with the usual priority. -/
def ContributedHandler.ofType (name kind : String)
    (handle : Cause → ExceptionContext → Option Outcome) : ContributedHandler :=
  { name, handler := .typed name kind handle 100 }

theorem ExceptionHandler.offer_typed (name kind : String)
    (handle : Cause → ExceptionContext → Option Outcome) (priority : Int) (cx : ExceptionContext)
    (c : Cause) : (typed name kind handle priority).offer cx c =
      if c.kind = kind then handle c cx else none := by
  by_cases h : c.kind = kind <;> simp [offer, typed, h]

namespace ExceptionRegistry

variable (front back : List ContributedHandler) {g : ContributedHandler}

/-! ## Turns -/

/-- The turn of a handler to answer to a cause comes sooner than that of the handler that was
registered behind others: the cause is further inside, or it is the same one, and the handler has a
smaller priority, or the same one and was registered in front. -/
def Sooner (front : List ContributedHandler) (g : ContributedHandler)
    (back : List ContributedHandler) (c : Cause) (inner : List Cause) (h : ExceptionHandler)
    (d : Cause) : Prop :=
  h ∈ registered (front ++ g :: back) ∧
    (d ∈ inner ∨ d = c ∧ (h.priority < g.handler.priority ∨
      h.priority = g.handler.priority ∧ h ∈ registered front))

/-- The first one that takes something is a given one that does, or its turn comes sooner. -/
theorem FirstTo.sooner {β : Type} {take : ExceptionHandler → Option β} {h g : ExceptionHandler}
    {hs ks : List ExceptionHandler} {answer own : β} (hf : FirstTo (hs ++ g :: ks) take h answer)
    (hg : take g = some own) :
    h = g ∨ h.priority < g.priority ∨ h.priority = g.priority ∧ h ∈ hs := by
  have hle : h.priority ≤ g.priority := by
    by_contra hlt
    have hnone := hf.priority g (by simp) (by omega)
    rw [hg] at hnone
    cases hnone
  rcases Int.lt_or_eq_of_le hle with hlt | heq
  · exact .inr (.inl hlt)
  · obtain ⟨before, after, happend, hnone⟩ := hf.registration
    rcases front_or_same_or_behind happend with ⟨hmem, -⟩ | rfl | ⟨hmem, -⟩
    · have hg' := hnone g hmem heq.symm
      rw [hg] at hg'
      cases hg'
    · exact .inl rfl
    · exact .inr (.inr ⟨heq, hmem⟩)

/-- A handler that has an answer gives it, or one answers whose turn comes sooner. -/
theorem handle_of_offer (hg : g.asFallback = false) {e : DispatchError} {cx : ExceptionContext}
    {outer inner : List Cause} {c : Cause} {own : Outcome}
    (hc : e.causes = outer ++ c :: inner) (ho : g.handler.offer cx c = some own) :
    ∃ outcome, ((front ++ g :: back).foldl contribute {}).handle e cx = some outcome ∧
      (outcome = own ∨ ∃ h d, Sooner front g back c inner h d ∧ h.offer cx d = some outcome) := by
  have ha := askedAs_registered (front ++ g :: back)
  have hregistered : registered (front ++ g :: back) =
      registered front ++ g.handler :: registered back := by
    rw [registered_append, registered_cons hg]
  have htaken : ¬ Refused (registered (front ++ g :: back)) cx c := fun h => by
    have hnone := h g.handler (by rw [hregistered]; simp)
    rw [ho] at hnone
    cases hnone
  cases hanswer : ((front ++ g :: back).foldl contribute {}).answer? e cx with
  | none =>
    have hrefused := (answer?_eq_none_iff ha e cx).mp hanswer c (by rw [hc]; simp)
    exact absurd hrefused htaken
  | some outcome =>
    refine ⟨outcome, by rw [handle_eq, hanswer, Option.some_or], ?_⟩
    obtain ⟨d, h, ⟨outer', inner', hd, hrefused⟩, hfirst⟩ :=
      (answer?_eq_some_iff ha e cx outcome).mp hanswer
    have hmem : h ∈ registered (front ++ g :: back) := by
      obtain ⟨before, after, happend, -⟩ := hfirst.registration
      rw [happend]
      simp
    rcases front_or_same_or_behind (hc.symm.trans hd) with ⟨-, hinner⟩ | rfl | ⟨-, hinner⟩
    · exact .inr ⟨h, d, ⟨hmem, .inl hinner⟩, hfirst.takes⟩
    · rw [hregistered] at hfirst
      rcases hfirst.sooner ho with rfl | hsooner
      · exact .inl (Option.some.inj (hfirst.takes.symm.trans ho))
      · exact .inr ⟨h, c, ⟨hmem, .inr ⟨rfl, hsooner⟩⟩, hfirst.takes⟩
    · -- No handler takes a cause further inside than the one that is answered.
      exact absurd (hrefused c hinner) htaken

/-- A handler that declines all causes makes no difference. -/
theorem handle_without (hg : g.asFallback = false) {e : DispatchError} {cx : ExceptionContext}
    (hd : ∀ c ∈ e.causes, g.handler.offer cx c = none) :
    ((front ++ g :: back).foldl contribute {}).handle e cx =
      ((front ++ back).foldl contribute {}).handle e cx := by
  have hanswer : ((front ++ g :: back).foldl contribute {}).answer? e cx =
      ((front ++ back).foldl contribute {}).answer? e cx := by
    unfold answer?
    rw [← List.head?_filterMap, ← List.head?_filterMap]
    refine congrArg List.head? (List.filterMap_congr fun c hc => ?_)
    refine (askedAs_registered _).findSome?_congr (askedAs_registered _) ?_
    rw [registered_append, registered_cons hg, registered_append, List.filter_append,
      List.filter_append, List.filter_cons, hd c (List.mem_reverse.mp hc)]
    rfl
  rw [handle_eq, handle_eq, hanswer, fallback_registered, fallback_registered,
    lastFallback?_append, lastFallback?_cons hg, ← lastFallback?_append]

/-- Nobody answers where no handler is registered. -/
theorem handle_empty (e : DispatchError) (cx : ExceptionContext) :
    ({} : ExceptionRegistry).handle e cx = none := by
  have hanswer : ({} : ExceptionRegistry).answer? e cx = none :=
    List.findSome?_eq_none_iff.mpr fun _ _ => rfl
  rw [handle_eq, hanswer]
  rfl

end ExceptionRegistry

/-! ## Types -/

/-- The type name of routing errors. -/
def RouterError.kind : String := "RouterError"

/-- What exception handlers see of a failed request. -/
def DispatchFailure.context (f : DispatchFailure) (path : String) : ExceptionContext :=
  { path, event := f.event, handlerType := f.handlerType }

/-- The result of a failed request for which an exception handler has an outcome. -/
def DispatchFailure.handled (f : DispatchFailure) (outcome : Outcome) : DispatchResult :=
  { outcome, event := f.event, handledError := some f.error }

namespace Dispatcher

variable {d : Dispatcher} {request : Request} {f : DispatchFailure}

theorem result_of_error (hf : (d.run request).2 = .error f) :
    (d.dispatch request).result =
      match d.exceptions.handle f.error (f.context request.path) with
      | some outcome => .ok (f.handled outcome)
      | none => .error (.unhandled request.path f.error) := by
  rw [dispatch_result_eq, hf]
  rfl

/-- Exception handlers have no influence before a request fails. -/
theorem run_exceptions (d : Dispatcher) (x : ExceptionRegistry) (request : Request) :
    ({ d with exceptions := x }).run request = d.run request := rfl

/-- A request that fails for want of an action or an event has no cause but the dispatch error. -/
theorem causes_of_routing {e : RouterError} (hf : (d.run request).2 = .error f)
    (he : f.error = .routing e) :
    f.error.causes = [{ kind := DispatchError.kind, text := f.error.message }] := by
  have hinner : e.innerCauses = [] := by
    obtain h | ⟨e', h, hnone⟩ | ⟨type, event, failure, h⟩ := error_of_run hf
    · cases he.symm.trans h
    · cases he.symm.trans h
      exact hnone
    · cases he.symm.trans h
  rw [DispatchError.causes, he, DispatchError.innerCauses, hinner]

/-- **Types.** An exception handler is registered for errors of one type, among others.

If a request fails in its handler with an error of this type for which there is an outcome, the
request results in an outcome: in this one, or in that of an exception handler whose turn comes
sooner. Without other exception handlers the outcome is that of the one handler.

If a request fails for want of an event, the handler makes no difference, unless it is one of
dispatch errors as such. Without other exception handlers the error is left to the caller, also if
the type is that of routing errors. -/
theorem answered_by_type (front back : List ContributedHandler) {name kind : String}
    {handle : Cause → ExceptionContext → Option Outcome}
    (hx : d.exceptions =
      (front ++ .ofType name kind handle :: back).foldl ExceptionRegistry.contribute {})
    (hf : (d.run request).2 = .error f) :
    (∀ type event failure own, f.error = .handlerFailed type event failure →
      failure.outermost.kind = kind →
      handle failure.outermost (f.context request.path) = some own →
      ∃ outcome, (d.dispatch request).result = .ok (f.handled outcome) ∧
        (outcome = own ∨ ∃ h c, ExceptionRegistry.Sooner front (.ofType name kind handle) back
          failure.outermost failure.inner h c ∧
          h.offer (f.context request.path) c = some outcome) ∧
        (front = [] → back = [] → ∃ c ∈ failure.causes,
          c.kind = kind ∧ handle c (f.context request.path) = some outcome)) ∧
    ∀ e, f.error = .routing e → kind ≠ DispatchError.kind →
      (d.dispatch request).result =
        ({ d with
            exceptions := (front ++ back).foldl ExceptionRegistry.contribute {} }.dispatch
          request).result ∧
      (front = [] → back = [] →
        (d.dispatch request).result = .error (.unhandled request.path (.routing e))) := by
  constructor
  · intro type event failure own he hk ho
    have hoffer : (ContributedHandler.ofType name kind handle).handler.offer
        (f.context request.path) failure.outermost = some own := by
      show (ExceptionHandler.typed name kind handle 100).offer _ _ = _
      rw [ExceptionHandler.offer_typed, if_pos hk, ho]
    have hcauses : f.error.causes = [{ kind := DispatchError.kind, text := f.error.message }] ++
        failure.outermost :: failure.inner := by rw [he]; rfl
    obtain ⟨outcome, hhandle, hturn⟩ :=
      ExceptionRegistry.handle_of_offer front back rfl hcauses hoffer
    refine ⟨outcome, by rw [result_of_error hf, hx, hhandle], hturn, ?_⟩
    rintro rfl rfl
    rcases hturn with rfl | ⟨h, c, ⟨hmem, hc⟩, hanswer⟩
    · exact ⟨failure.outermost, List.mem_cons_self .., hk, ho⟩
    · obtain rfl : h = .typed name kind handle 100 := List.mem_singleton.mp hmem
      rw [ExceptionHandler.offer_typed] at hanswer
      split at hanswer
      · next hkind =>
        rcases hc with hc | ⟨rfl, hlt | ⟨-, hmem⟩⟩
        · exact ⟨c, List.mem_cons_of_mem _ hc, hkind, hanswer⟩
        · exact absurd hlt (Int.lt_irrefl _)
        · cases hmem
      · cases hanswer
  · intro e he hk
    have hdeclines : ∀ c ∈ f.error.causes,
        (ContributedHandler.ofType name kind handle).handler.offer (f.context request.path) c =
          none := by
      rw [causes_of_routing hf he]
      intro c hc
      obtain rfl := List.mem_singleton.mp hc
      show (ExceptionHandler.typed name kind handle 100).offer _ _ = _
      rw [ExceptionHandler.offer_typed, if_neg (Ne.symm hk)]
    have hwithout := ExceptionRegistry.handle_without front back rfl hdeclines
    refine ⟨?_, ?_⟩
    · rw [result_of_error hf, result_of_error ((run_exceptions ..).symm ▸ hf), hx, hwithout]
    · rintro rfl rfl
      rw [result_of_error hf, hx, hwithout, List.append_nil, List.foldl_nil,
        ExceptionRegistry.handle_empty, he]

/-- An action whose one event fails. -/
def desk : Action where
  bean := .ofFields "Desk" []
  urlBinding := "/desk"
  handlers :=
    [{ event := "lend", isDefault := true
       run := fun _ _ => .error { outermost := { kind := "BookMissing", text := "no book" } } }]

/-- The dispatcher of the one action, with a page for the errors of one type. -/
def ofDesk (kind : String) : Dispatcher where
  router := ⟨[⟨⟨"/desk", [.literal "desk"]⟩, "Desk"⟩], [(desk, ⟨[]⟩)]⟩
  exceptions := [ContributedHandler.ofType "page" kind
    fun _ _ => some (.toPath "/page")].foldl ExceptionRegistry.contribute {}
  freshBean := fun _ => none

/-- The page is shown for a missing book, and not for a missing event. -/
theorem answered_by_type_desk :
    (∃ result, ((ofDesk "BookMissing").dispatch { path := "/desk" }).result = .ok result ∧
      result.outcome = .toPath "/page") ∧
    ((ofDesk RouterError.kind).dispatch { path := "/desk", event := some "return" }).result =
      .error (.unhandled "/desk" (.routing (.handlerNotFound "Desk" "return"))) := by
  constructor
  · have hrun : ((ofDesk "BookMissing").run { path := "/desk" }).2 = .error
        { error := .handlerFailed "Desk" "lend"
            { outermost := { kind := "BookMissing", text := "no book" } }
          handlerType := some "Desk", event := some "lend" } := rfl
    obtain ⟨outcome, hresult, -, halone⟩ :=
      (answered_by_type [] [] rfl hrun).1 _ _ _ _ rfl rfl rfl
    obtain ⟨-, -, -, ho⟩ := halone rfl rfl
    exact ⟨_, hresult, (Option.some.inj ho).symm⟩
  · have hrun : ((ofDesk RouterError.kind).run { path := "/desk", event := some "return" }).2 =
        .error { error := .routing (.handlerNotFound "Desk" "return")
                 handlerType := some "Desk" } := rfl
    exact ((answered_by_type [] [] rfl hrun).2 _ rfl (by decide)).2 rfl rfl

end Dispatcher

end Formwork
