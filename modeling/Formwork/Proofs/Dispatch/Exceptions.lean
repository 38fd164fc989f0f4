import Formwork.Dispatch.Exceptions
import Mathlib.Data.List.Nodup

/-!
# Which exception handler answers

- **Order** (`AskedAs`): handlers that are registered one after the other are asked in ascending
  order of their priority, and those of one priority in the order of their registration. One
  registration keeps this (`AskedAs.contribute`), and so do all of them (`askedAs_foldl`). The order
  is determined by the registrations (`AskedAs.unique`).
- **Answers** (`AskedAs.findSome?_eq_some_iff`): of the handlers that take a cause, the one with the
  smallest priority that was registered first answers.
- **Errors** (`handle_first`): of all pairs of a cause and a handler that takes it, the first one
  answers, the causes from the first one outward; without any, the fallback is asked about the error
  itself.
-/

namespace Formwork.ExceptionRegistry

variable {hs l : List ExceptionHandler} {h : ExceptionHandler}

/-! ## The order in which handlers are asked -/

/-- The handlers are asked in ascending order of their priority, and those of one priority in the
order of their registration. -/
structure AskedAs (hs l : List ExceptionHandler) : Prop where
  perm : l.Perm hs
  ascending : l.Pairwise fun g h => g.priority ≤ h.priority
  stable : ∀ p, l.filter (·.priority == p) = hs.filter (·.priority == p)

theorem mem_place_iff {g : ExceptionHandler} : g ∈ place h l ↔ g = h ∨ g ∈ l := by
  induction l with
  | nil => simp [place]
  | cons f rest ih =>
    unfold place
    split
    · exact List.mem_cons
    · rw [List.mem_cons, ih, List.mem_cons]
      exact or_left_comm

theorem perm_place : (place h l).Perm (l ++ [h]) := by
  induction l with
  | nil => exact .refl _
  | cons f rest ih =>
    unfold place
    split
    · exact (List.perm_append_comm : ([h] ++ f :: rest).Perm ((f :: rest) ++ [h]))
    · exact ih.cons f

theorem pairwise_place (ha : l.Pairwise fun g h => g.priority ≤ h.priority) :
    (place h l).Pairwise fun g h => g.priority ≤ h.priority := by
  induction l with
  | nil => exact List.pairwise_singleton ..
  | cons f rest ih =>
    obtain ⟨hf, hrest⟩ := List.pairwise_cons.mp ha
    unfold place
    split
    · next hlt =>
      refine List.pairwise_cons.mpr ⟨fun g hg => ?_, ha⟩
      rcases List.mem_cons.mp hg with rfl | hg
      · omega
      · have hle := hf g hg
        omega
    · next hge =>
      refine List.pairwise_cons.mpr ⟨fun g hg => ?_, ih hrest⟩
      rcases mem_place_iff.mp hg with rfl | hg
      · omega
      · exact hf g hg

/-- A handler comes behind those of its priority. -/
theorem filter_place (ha : l.Pairwise fun g h => g.priority ≤ h.priority) (p : Int) :
    (place h l).filter (·.priority == p) = (l ++ [h]).filter (·.priority == p) := by
  induction l with
  | nil => rfl
  | cons f rest ih =>
    obtain ⟨hf, hrest⟩ := List.pairwise_cons.mp ha
    unfold place
    split
    · next hlt =>
      -- No handler behind `h` has its priority.
      by_cases hp : h.priority = p
      · have hnone : (f :: rest).filter (·.priority == p) = [] := by
          rw [List.filter_eq_nil_iff]
          intro g hg
          rw [beq_iff_eq]
          rcases List.mem_cons.mp hg with rfl | hg
          · omega
          · have hle := hf g hg
            omega
        rw [List.filter_cons, List.filter_append, hnone]
        simp [hp]
      · rw [List.filter_cons, List.filter_append]
        simp [hp]
    · rw [List.cons_append, List.filter_cons, List.filter_cons, ih hrest]

namespace AskedAs

theorem nil : AskedAs [] [] := ⟨.refl _, .nil, fun _ => rfl⟩

/-- A handler that is registered keeps the order. -/
theorem place (ha : AskedAs hs l) (h : ExceptionHandler) :
    AskedAs (hs ++ [h]) (place h l) where
  perm := perm_place.trans (ha.perm.append_right [h])
  ascending := pairwise_place ha.ascending
  stable p := by
    rw [filter_place ha.ascending, List.filter_append, List.filter_append, ha.stable]

theorem filter (ha : AskedAs hs l) (P : ExceptionHandler → Bool) :
    AskedAs (hs.filter P) (l.filter P) where
  perm := ha.perm.filter P
  ascending := ha.ascending.filter P
  stable p := by
    rw [List.filter_comm _ P l, List.filter_comm _ P hs, ha.stable]

/-- There is one order in which registered handlers are asked. -/
theorem unique {m : List ExceptionHandler} (hl : AskedAs hs l) (hm : AskedAs hs m) : l = m := by
  have hlm : ∀ p, l.filter (·.priority == p) = m.filter (·.priority == p) := fun p =>
    (hl.stable p).trans (hm.stable p).symm
  have hperm : l.Perm m := hl.perm.trans hm.perm.symm
  have hal := hl.ascending
  have ham := hm.ascending
  clear hl hm
  induction l generalizing m with
  | nil => exact hperm.nil_eq
  | cons g l ih =>
    cases m with
    | nil => cases hperm.eq_nil
    | cons g' m =>
      obtain ⟨hg, hl⟩ := List.pairwise_cons.mp hal
      obtain ⟨hg', hm⟩ := List.pairwise_cons.mp ham
      -- Both handlers in front have the smallest priority.
      have hle : g'.priority ≤ g.priority := by
        rcases List.mem_cons.mp (hperm.mem_iff.mp (List.mem_cons_self ..)) with he | hmem
        · exact he ▸ Int.le_refl _
        · exact hg' g hmem
      have hge : g.priority ≤ g'.priority := by
        rcases List.mem_cons.mp (hperm.mem_iff.mpr (List.mem_cons_self ..)) with he | hmem
        · exact he ▸ Int.le_refl _
        · exact hg g' hmem
      have hp : g'.priority = g.priority := by omega
      have hfront := hlm g.priority
      simp only [List.filter_cons, hp, beq_self_eq_true, ↓reduceIte, List.cons.injEq] at hfront
      obtain ⟨rfl, -⟩ := hfront
      refine congrArg (List.cons g) (ih (fun p => ?_) hperm.cons_inv hl hm)
      have hrest := hlm p
      simp only [List.filter_cons] at hrest
      split at hrest
      · exact List.tail_eq_of_cons_eq hrest
      · exact hrest

/-- If all priorities are different, the order of the registrations does not matter. -/
theorem of_perm {hs' : List ExceptionHandler} (ha : AskedAs hs l) (hp : hs.Perm hs')
    (hn : (hs.map (·.priority)).Nodup) {m : List ExceptionHandler} (hm : AskedAs hs' m) :
    l = m := by
  refine List.Perm.eq_of_pairwise (fun g h hg hh hle hge => ?_) ha.ascending hm.ascending
    ((ha.perm.trans hp).trans hm.perm.symm)
  have hg : g ∈ hs := ha.perm.mem_iff.mp hg
  have hh : h ∈ hs := hp.mem_iff.mpr (hm.perm.mem_iff.mp hh)
  exact List.inj_on_of_nodup_map hn hg hh (by omega)

end AskedAs

/-! ## Answers -/

/-- A handler takes something before which no other one does: those with a smaller priority do not,
and of its own priority those do not that were registered before it. -/
structure FirstTo {β : Type} (hs : List ExceptionHandler) (take : ExceptionHandler → Option β)
    (h : ExceptionHandler) (answer : β) : Prop where
  takes : take h = some answer
  priority : ∀ g ∈ hs, g.priority < h.priority → take g = none
  registration : ∃ front back, hs = front ++ h :: back ∧
    ∀ g ∈ front, g.priority = h.priority → take g = none

/-- In a list with the same elements of a kind, the same ones of them are in front of a given
one. -/
theorem exists_append_of_filter_eq {P : ExceptionHandler → Bool}
    {m front back : List ExceptionHandler}
    (hm : (front ++ h :: back).filter P = m.filter P) (hP : P h = true) :
    ∃ before after, m = before ++ h :: after ∧ before.filter P = front.filter P := by
  replace hm := hm.symm
  rw [List.filter_append, List.filter_cons, if_pos hP, List.filter_eq_append_iff] at hm
  obtain ⟨before, rest, rfl, hbefore, hrest⟩ := hm
  obtain ⟨skipped, after, rfl, hskipped, -, -⟩ := List.filter_eq_cons_iff.mp hrest
  refine ⟨before ++ skipped, after, (List.append_assoc ..).symm, ?_⟩
  rw [List.filter_append, List.filter_eq_nil_iff.mpr hskipped, List.append_nil, hbefore]

/-- The handler that answers is the one with the smallest priority that was registered first. -/
theorem AskedAs.findSome?_eq_some_iff {β : Type} (ha : AskedAs hs l)
    {take : ExceptionHandler → Option β} {answer : β} :
    l.findSome? take = some answer ↔ ∃ h, FirstTo hs take h answer := by
  rw [List.findSome?_eq_some_iff]
  constructor
  · rintro ⟨front, h, back, rfl, htakes, hnone⟩
    obtain ⟨-, hback, -⟩ := List.pairwise_append.mp ha.ascending
    have hlater := (List.pairwise_cons.mp hback).1
    obtain ⟨before, after, happend, hsame⟩ :=
      exists_append_of_filter_eq (ha.stable h.priority) (beq_self_eq_true _)
    refine ⟨h, htakes, fun g hg hlt => ?_, before, after, happend, fun g hg hp => ?_⟩
    · rcases List.mem_append.mp (ha.perm.mem_iff.mpr hg) with hg | hg
      · exact hnone g hg
      · rcases List.mem_cons.mp hg with rfl | hg
        · omega
        · have hle := hlater g hg
          omega
    · have hmem : g ∈ before.filter (·.priority == h.priority) :=
        List.mem_filter.mpr ⟨hg, beq_iff_eq.mpr hp⟩
      rw [hsame] at hmem
      exact hnone g (List.mem_of_mem_filter hmem)
  · rintro ⟨h, htakes, hpriority, before, after, rfl, hregistration⟩
    obtain ⟨front, back, rfl, hsame⟩ :=
      exists_append_of_filter_eq (ha.stable h.priority).symm (beq_self_eq_true _)
    refine ⟨front, h, back, rfl, htakes, fun g hg => ?_⟩
    have hle : g.priority ≤ h.priority :=
      (List.pairwise_append.mp ha.ascending).2.2 g hg h (List.mem_cons_self ..)
    by_cases hp : g.priority = h.priority
    · have hmem : g ∈ front.filter (·.priority == h.priority) :=
        List.mem_filter.mpr ⟨hg, beq_iff_eq.mpr hp⟩
      rw [hsame] at hmem
      exact hregistration g (List.mem_of_mem_filter hmem) hp
    · exact hpriority g (ha.perm.mem_iff.mp (List.mem_append_left _ hg)) (by omega)

/-- Handlers that do not take a thing make no difference to who answers. -/
theorem AskedAs.findSome?_congr {β : Type} {hs' m : List ExceptionHandler} (hl : AskedAs hs l)
    (hm : AskedAs hs' m) {take : ExceptionHandler → Option β}
    (h : hs.filter (fun g => (take g).isSome) = hs'.filter fun g => (take g).isSome) :
    l.findSome? take = m.findSome? take := by
  have hkept : ∀ k : List ExceptionHandler,
      k.findSome? take = (k.filter fun g => (take g).isSome).findSome? take := by
    intro k
    rw [← List.head?_filterMap, ← List.head?_filterMap, List.filterMap_filter]
    refine congrArg List.head? (List.filterMap_congr fun g _ => ?_)
    cases take g <;> rfl
  rw [hkept l, hkept m]
  have hfiltered := hm.filter fun g => (take g).isSome
  rw [← h] at hfiltered
  rw [(hl.filter _).unique hfiltered]

/-! ## Registrations -/

/-- The handlers that are asked by priority, in the order of their registration. -/
def registered (cs : List ContributedHandler) : List ExceptionHandler :=
  (cs.filter (!·.asFallback)).map (·.handler)

/-- The fallback that is set last. -/
def lastFallback? (cs : List ContributedHandler) : Option ExceptionHandler :=
  (cs.filter (·.asFallback)).getLast?.map (·.handler)

variable {r : ExceptionRegistry}

theorem registered_append (cs ds : List ContributedHandler) :
    registered (cs ++ ds) = registered cs ++ registered ds := by
  unfold registered
  rw [List.filter_append, List.map_append]

theorem registered_cons {c : ContributedHandler} (hc : c.asFallback = false)
    (cs : List ContributedHandler) : registered (c :: cs) = c.handler :: registered cs := by
  simp [registered, hc]

theorem lastFallback?_append (cs ds : List ContributedHandler) :
    lastFallback? (cs ++ ds) = (lastFallback? ds).or (lastFallback? cs) := by
  unfold lastFallback?
  rw [List.filter_append, List.getLast?_append]
  cases (ds.filter (·.asFallback)).getLast? <;> rfl

theorem lastFallback?_cons {c : ContributedHandler} (hc : c.asFallback = false)
    (cs : List ContributedHandler) : lastFallback? (c :: cs) = lastFallback? cs := by
  simp [lastFallback?, hc]

/-- One registration keeps the order. -/
theorem AskedAs.contribute (ha : AskedAs hs r.handlers) (c : ContributedHandler) :
    AskedAs (hs ++ registered [c]) (r.contribute c).handlers := by
  unfold registered ExceptionRegistry.contribute
  cases hc : c.asFallback with
  | true => simpa [hc, setFallback] using ha
  | false => simpa [hc, register] using ha.place c.handler

theorem fallback_contribute (r : ExceptionRegistry) (c : ContributedHandler) :
    (r.contribute c).fallback = (lastFallback? [c]).or r.fallback := by
  unfold lastFallback? contribute
  cases hc : c.asFallback <;> simp [hc, setFallback, register]

/-- All registrations keep the order. -/
theorem askedAs_foldl (cs : List ContributedHandler) (ha : AskedAs hs r.handlers) :
    AskedAs (hs ++ registered cs) (cs.foldl contribute r).handlers := by
  induction cs generalizing hs r with
  | nil => exact (List.append_nil hs).symm ▸ ha
  | cons c rest ih =>
    rw [← List.singleton_append, registered_append, ← List.append_assoc]
    exact ih (ha.contribute c)

/-- The fallback that is set last stays. -/
theorem fallback_foldl (r : ExceptionRegistry) (cs : List ContributedHandler) :
    (cs.foldl contribute r).fallback = (lastFallback? cs).or r.fallback := by
  induction cs generalizing r with
  | nil => rfl
  | cons c rest ih =>
    show _ = (lastFallback? ([c] ++ rest)).or r.fallback
    rw [List.foldl_cons, ih, fallback_contribute, lastFallback?_append, Option.or_assoc]

theorem askedAs_registered (cs : List ContributedHandler) :
    AskedAs (registered cs) (cs.foldl contribute {}).handlers :=
  askedAs_foldl cs (r := {}) .nil

theorem fallback_registered (cs : List ContributedHandler) :
    (cs.foldl contribute {}).fallback = lastFallback? cs := by
  rw [fallback_foldl, Option.or_none]

/-! ## Errors -/

/-- No handler takes the cause. -/
def Refused (hs : List ExceptionHandler) (cx : ExceptionContext) (c : Cause) : Prop :=
  ∀ h ∈ hs, h.offer cx c = none

/-- The outcome is that of the first pair of a cause and a handler that takes it: no handler takes a
cause further inside, and no one before this handler takes this cause. -/
def FirstAnswer (hs : List ExceptionHandler) (cx : ExceptionContext) (e : DispatchError)
    (outcome : Outcome) : Prop :=
  ∃ c h, (∃ outer inner, e.causes = outer ++ c :: inner ∧ ∀ d ∈ inner, Refused hs cx d) ∧
    FirstTo hs (·.offer cx c) h outcome

/-- What the handlers answer to an error, without the fallback. -/
def answer? (r : ExceptionRegistry) (e : DispatchError) (cx : ExceptionContext) : Option Outcome :=
  e.causes.reverse.findSome? fun c => r.handlers.findSome? fun h => h.offer cx c

theorem handle_eq (r : ExceptionRegistry) (e : DispatchError) (cx : ExceptionContext) :
    r.handle e cx = (r.answer? e cx).or
      (r.fallback.bind fun f => e.causes.head?.bind fun c => f.handle c cx) := rfl

theorem refused_iff (ha : AskedAs hs l) (cx : ExceptionContext) (c : Cause) :
    (l.findSome? fun h => h.offer cx c) = none ↔ Refused hs cx c := by
  rw [List.findSome?_eq_none_iff]
  exact ⟨fun h g hg => h g (ha.perm.mem_iff.mpr hg), fun h g hg => h g (ha.perm.mem_iff.mp hg)⟩

theorem answer?_eq_none_iff (ha : AskedAs hs r.handlers) (e : DispatchError)
    (cx : ExceptionContext) : r.answer? e cx = none ↔ ∀ c ∈ e.causes, Refused hs cx c := by
  unfold answer?
  rw [List.findSome?_eq_none_iff]
  simp only [List.mem_reverse, refused_iff ha]

theorem answer?_eq_some_iff (ha : AskedAs hs r.handlers) (e : DispatchError)
    (cx : ExceptionContext) (outcome : Outcome) :
    r.answer? e cx = some outcome ↔ FirstAnswer hs cx e outcome := by
  unfold answer?
  rw [List.findSome?_eq_some_iff]
  constructor
  · rintro ⟨front, c, back, hcauses, htakes, hrefused⟩
    obtain ⟨h, hfirst⟩ := ha.findSome?_eq_some_iff.mp htakes
    refine ⟨c, h, ⟨back.reverse, front.reverse, ?_, fun d hd => ?_⟩, hfirst⟩
    · rw [← List.reverse_reverse e.causes, hcauses]
      simp
    · exact (refused_iff ha cx d).mp (hrefused d (List.mem_reverse.mp hd))
  · rintro ⟨c, h, ⟨outer, inner, hcauses, hrefused⟩, hfirst⟩
    refine ⟨inner.reverse, c, outer.reverse, ?_, ha.findSome?_eq_some_iff.mpr ⟨h, hfirst⟩,
      fun d hd => ?_⟩
    · rw [hcauses]
      simp
    · exact (refused_iff ha cx d).mpr (hrefused d (List.mem_reverse.mp hd))

/-- **Errors.** The first pair of a cause and a handler that takes it answers, the causes from the
first one outward, for each cause the handlers by their priority, and those of one priority as they
were registered. If there is none, the fallback answers to the error itself, which is the head of
its causes; without an answer of the fallback there is none at all. If all priorities are different,
the order of the registrations makes no difference. -/
theorem handle_first (cs : List ContributedHandler) (e : DispatchError) (cx : ExceptionContext) :
    (∀ outcome, (cs.foldl contribute {}).handle e cx = some outcome ↔
      FirstAnswer (registered cs) cx e outcome ∨
        (∀ c ∈ e.causes, Refused (registered cs) cx c) ∧
          ∃ f c, lastFallback? cs = some f ∧ e.causes.head? = some c ∧
            f.handle c cx = some outcome) ∧
    ((cs.foldl contribute {}).handle e cx = none ↔
      (∀ c ∈ e.causes, Refused (registered cs) cx c) ∧
        ∀ f c, lastFallback? cs = some f → e.causes.head? = some c → f.handle c cx = none) ∧
    ∀ cs', (registered cs').Perm (registered cs) → lastFallback? cs' = lastFallback? cs →
      ((registered cs).map (·.priority)).Nodup →
      (cs'.foldl contribute {}).handle e cx = (cs.foldl contribute {}).handle e cx := by
  have ha := askedAs_registered cs
  refine ⟨fun outcome => ?_, ?_, fun cs' hp hf hn => ?_⟩
  · rw [handle_eq, Option.or_eq_some_iff, answer?_eq_some_iff ha, answer?_eq_none_iff ha,
      fallback_registered]
    simp only [Option.bind_eq_some_iff]
    refine or_congr_right (and_congr_right fun _ => ?_)
    exact ⟨fun ⟨f, hf, c, hc, ho⟩ => ⟨f, c, hf, hc, ho⟩,
      fun ⟨f, c, hf, hc, ho⟩ => ⟨f, hf, c, hc, ho⟩⟩
  · rw [handle_eq, Option.or_eq_none_iff, answer?_eq_none_iff ha, fallback_registered]
    simp only [Option.bind_eq_none_iff]
    exact and_congr_right fun _ =>
      ⟨fun h f c hf hc => h f hf c hc, fun h f hf c hc => h f c hf hc⟩
  · have hsame : (cs'.foldl contribute {}).handlers = (cs.foldl contribute {}).handlers :=
      (ha.of_perm hp.symm hn (askedAs_registered cs')).symm
    rw [handle_eq, handle_eq, answer?, hsame, fallback_registered, hf, ← fallback_registered cs]
    rfl

/-- A page for missing records, and one for failed queries, which is asked before it. -/
def recordPages : List ContributedHandler :=
  [{ name := "missing"
     handler := .typed "missing" "RecordNotFound" (fun _ _ => some (.toPath "/missing")) 100 },
    { name := "query"
      handler := .typed "query" "QueryFailed" (fun _ _ => some (.toPath "/query")) 50 }]

/-- A query that failed because a record is missing. -/
def failedQuery : DispatchError :=
  .handlerFailed "Bugs" "view"
    { outermost := { kind := "QueryFailed", text := "no answer" }
      inner := [{ kind := "RecordNotFound", text := "no such record" }] }

/-- The missing record is the first cause, so that its page answers in either order. -/
theorem handle_first_recordPages :
    (registered recordPages.reverse).Perm (registered recordPages) ∧
    lastFallback? recordPages.reverse = lastFallback? recordPages ∧
    ((registered recordPages).map (·.priority)).Nodup ∧
    (recordPages.reverse.foldl contribute {}).handle failedQuery { path := "/bugs" } =
      (recordPages.foldl contribute {}).handle failedQuery { path := "/bugs" } ∧
    (recordPages.foldl contribute {}).handle failedQuery { path := "/bugs" } =
      some (.toPath "/missing") := by
  have hp : (registered recordPages.reverse).Perm (registered recordPages) := .swap ..
  have hn : ((registered recordPages).map (·.priority)).Nodup := by decide
  exact ⟨hp, rfl, hn,
    (handle_first recordPages failedQuery { path := "/bugs" }).2.2 recordPages.reverse hp rfl hn,
    by decide⟩

end Formwork.ExceptionRegistry
