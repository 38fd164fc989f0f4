import Formwork.Proofs.Append
import Formwork.Proofs.Dispatch.Exceptions

/-!
# Contributed exception handlers

Contributed handlers are found in some order, and registered in the order of their names. The order
in which they are found still decides between those of one name.

- **Names** (`filter_byName`): handlers of one name stay in the order in which they were found.
- **One question** (`exists_firstTo_iff`): of all orders, the answers to a cause are those of the
  handlers that take it and that no other one with a smaller priority takes, nor one of the same
  priority that was registered before or has a smaller name (`MayTake`).
- **The fallback** (`exists_lastFallback?_iff`): it is one with the greatest name (`MayFallBack`).
- **Errors** (`handle_contributeAll`): the answers to an error in all orders, and that the order
  makes no difference unless two handlers tie (`Tied`).
-/

namespace Formwork.ExceptionRegistry

variable {hs : List ExceptionHandler} {cs l m : List ContributedHandler} {c d : ContributedHandler}
  {h : ExceptionHandler}

/-! ## The order of the names -/

/-- Contributed handlers in the order of their names. -/
def byName (l : List ContributedHandler) : List ContributedHandler :=
  l.mergeSort fun a b => decide (a.name ≤ b.name)

theorem name_le_trans (a b c : ContributedHandler) (hab : decide (a.name ≤ b.name) = true)
    (hbc : decide (b.name ≤ c.name) = true) : decide (a.name ≤ c.name) = true :=
  decide_eq_true (String.le_trans (of_decide_eq_true hab) (of_decide_eq_true hbc))

theorem name_le_total (a b : ContributedHandler) :
    (decide (a.name ≤ b.name) || decide (b.name ≤ a.name)) = true := by
  rcases String.le_total a.name b.name with h | h <;> simp [h]

theorem perm_byName (l : List ContributedHandler) : (byName l).Perm l := List.mergeSort_perm _ _

theorem mem_byName (h : m.Perm l) : d ∈ byName m ↔ d ∈ l := ((perm_byName m).trans h).mem_iff

theorem pairwise_byName (l : List ContributedHandler) :
    (byName l).Pairwise fun a b => a.name ≤ b.name :=
  (List.pairwise_mergeSort name_le_trans name_le_total l).imp of_decide_eq_true

/-- Handlers of one name stay in the order in which they were found. -/
theorem filter_byName (l : List ContributedHandler) (n : String) :
    (byName l).filter (·.name == n) = l.filter (·.name == n) := by
  have hsame : (l.filter (·.name == n)).Pairwise fun a b => decide (a.name ≤ b.name) = true := by
    refine List.pairwise_of_forall_mem_list fun a ha b hb => ?_
    have hna : a.name = n := beq_iff_eq.mp (List.mem_filter.mp ha).2
    have hnb : b.name = n := beq_iff_eq.mp (List.mem_filter.mp hb).2
    rw [hna, hnb]
    exact decide_eq_true (String.le_refl n)
  have hsub : (l.filter (·.name == n)).Sublist (byName l) :=
    List.sublist_mergeSort name_le_trans name_le_total hsame List.filter_sublist
  have hfiltered := hsub.filter (·.name == n)
  rw [List.filter_filter] at hfiltered
  simp only [Bool.and_self] at hfiltered
  exact (hfiltered.eq_of_length ((perm_byName l).symm.filter _).length_eq).symm

/-- Collected handlers are registered after the earlier ones, in the order of their names. -/
theorem contributeAll_eq (cs l : List ContributedHandler) :
    (cs.foldl contribute {}).contributeAll l = (cs ++ byName l).foldl contribute {} := by
  rw [List.foldl_append]
  rfl

/-! ## One question -/

theorem mem_registered : h ∈ registered l ↔ ∃ d ∈ l, d.asFallback = false ∧ d.handler = h := by
  simp [registered, and_assoc]

/-- What is registered in front of a handler is that of the contributions in front of one. -/
theorem exists_append_of_registered_eq {front back : List ExceptionHandler}
    (hr : registered l = front ++ h :: back) :
    ∃ before c after, l = before ++ c :: after ∧ c.asFallback = false ∧ c.handler = h ∧
      registered before = front := by
  unfold registered at hr
  obtain ⟨typed, rest, hsplit, hfront, hrest⟩ := List.map_eq_append_iff.mp hr
  obtain ⟨c, tail, rfl, hc, -⟩ := List.map_eq_cons_iff.mp hrest
  obtain ⟨before, more, rfl, hbefore, hmore⟩ := List.filter_eq_append_iff.mp hsplit
  obtain ⟨skipped, after, rfl, hskipped, htyped, -⟩ := List.filter_eq_cons_iff.mp hmore
  refine ⟨before ++ skipped, c, after, by simp, by simpa using htyped, hc, ?_⟩
  rw [registered, List.filter_append, hbefore, List.filter_eq_nil_iff.mpr hskipped,
    List.append_nil, hfront]

/-- The answers that handlers may give in some order of the contributed ones: that of the first
handler registered earlier, and those of contributed handlers that no other one precedes. -/
inductive MayTake {β : Type} (hs : List ExceptionHandler) (l : List ContributedHandler)
    (take : ExceptionHandler → Option β) : β → Prop
  | earlier {h : ExceptionHandler} {answer : β} (hfirst : FirstTo hs take h answer)
      (hlast : ∀ d ∈ l, d.asFallback = false → d.handler.priority < h.priority →
        take d.handler = none) : MayTake hs l take answer
  | contributed {c : ContributedHandler} {answer : β} (hc : c ∈ l) (htyped : c.asFallback = false)
      (htakes : take c.handler = some answer)
      (hearlier : ∀ g ∈ hs, g.priority ≤ c.handler.priority → take g = none)
      (hleads : ∀ d ∈ l, d.asFallback = false → take d.handler ≠ none →
        c.handler.priority < d.handler.priority ∨
          c.handler.priority = d.handler.priority ∧ c.name ≤ d.name) :
      MayTake hs l take answer

variable {β : Type} {take : ExceptionHandler → Option β} {answer : β}

/-- In every order, the handler that answers first is one of those that may. -/
theorem mayTake_of_firstTo (hm : m.Perm l)
    (hf : FirstTo (hs ++ registered (byName m)) take h answer) : MayTake hs l take answer := by
  obtain ⟨htakes, hpriority, front, back, happend, hfront⟩ := hf
  have hnone : ∀ d ∈ l, d.asFallback = false → d.handler.priority < h.priority →
      take d.handler = none := fun d hd htyped => hpriority _ (List.mem_append_right _
    (mem_registered.mpr ⟨d, (mem_byName hm).mpr hd, htyped, rfl⟩))
  rcases append_eq_append_cons happend with ⟨more, rfl, -⟩ | ⟨skipped, rfl, hr⟩
  · exact .earlier ⟨htakes, fun g hg => hpriority g (List.mem_append_left _ hg), front, more, rfl,
      hfront⟩ hnone
  · -- The handler was contributed, and the earlier ones stand in front of it.
    obtain ⟨before, c, after, hsplit, htyped, rfl, rfl⟩ := exists_append_of_registered_eq hr
    have hc : c ∈ l := (mem_byName hm).mp (hsplit ▸ by simp)
    refine .contributed hc htyped htakes (fun g hg hle => ?_) fun d hd hdtyped hdtakes => ?_
    · rcases Int.lt_or_eq_of_le hle with hlt | he
      · exact hpriority g (List.mem_append_left _ hg) hlt
      · exact hfront g (List.mem_append_left _ hg) he
    · rcases Int.lt_trichotomy d.handler.priority c.handler.priority with hlt | he | hgt
      · exact absurd (hnone d hd hdtyped hlt) hdtakes
      · refine .inr ⟨he.symm, ?_⟩
        have hmem : d ∈ before ++ c :: after := hsplit ▸ (mem_byName hm).mpr hd
        rcases List.mem_append.mp hmem with hbefore | hafter
        · exact absurd (hfront _ (List.mem_append_right _
            (mem_registered.mpr ⟨d, hbefore, hdtyped, rfl⟩)) he) hdtakes
        · rcases List.mem_cons.mp hafter with rfl | hafter
          · exact String.le_refl _
          · have hsorted := pairwise_byName m
            rw [hsplit] at hsorted
            exact (List.pairwise_cons.mp (List.pairwise_append.mp hsorted).2.1).1 d hafter
      · exact .inl hgt

/-- Every handler that may answer does so if it is found first. -/
theorem exists_firstTo_of_mayTake (h : MayTake hs l take answer) :
    ∃ m h, m.Perm l ∧ FirstTo (hs ++ registered (byName m)) take h answer := by
  cases h with
  | @earlier h _ hfirst hlast =>
    obtain ⟨htakes, hpriority, front, back, rfl, hfront⟩ := hfirst
    refine ⟨l, h, .refl _, htakes, fun g hg hlt => ?_, front, back ++ registered (byName l),
      by simp, hfront⟩
    rcases List.mem_append.mp hg with hg | hg
    · exact hpriority g hg hlt
    · obtain ⟨d, hd, htyped, rfl⟩ := mem_registered.mp hg
      exact hlast d ((mem_byName (.refl _)).mp hd) htyped hlt
  | @contributed c _ hc htyped htakes hearlier hleads =>
    obtain ⟨front, back, rfl⟩ := List.append_of_mem hc
    have hm : (c :: (front ++ back)).Perm (front ++ c :: back) := List.perm_middle.symm
    obtain ⟨before, after, hsplit, -, hbefore⟩ :=
      List.mergeSort_cons name_le_trans name_le_total c (front ++ back)
    have hsplit : byName (c :: (front ++ back)) = before ++ c :: after := hsplit
    have hr : registered (byName (c :: (front ++ back))) =
        registered before ++ c.handler :: registered after := by
      rw [hsplit, registered_append, registered_cons htyped]
    refine ⟨_, c.handler, hm, htakes, fun g hg hlt => ?_, hs ++ registered before,
      registered after, by rw [hr, List.append_assoc], fun g hg he => ?_⟩
    · rcases List.mem_append.mp hg with hg | hg
      · exact hearlier g hg (Int.le_of_lt hlt)
      · obtain ⟨d, hd, hdtyped, rfl⟩ := mem_registered.mp hg
        refine Classical.byContradiction fun hdtakes => ?_
        rcases hleads d ((mem_byName hm).mp hd) hdtyped hdtakes with hgt | ⟨he, -⟩
        · omega
        · omega
    · rcases List.mem_append.mp hg with hg | hg
      · exact hearlier g hg (Int.le_of_eq he)
      · -- The contributed handlers in front have smaller names.
        obtain ⟨d, hd, hdtyped, rfl⟩ := mem_registered.mp hg
        have hname : ¬ c.name ≤ d.name := by simpa using hbefore d hd
        have hdl : d ∈ front ++ c :: back :=
          (mem_byName hm).mp (hsplit ▸ List.mem_append_left _ hd)
        refine Classical.byContradiction fun hdtakes => ?_
        rcases hleads d hdl hdtyped hdtakes with hgt | ⟨-, hle⟩
        · omega
        · exact hname hle

/-! ## The fallback -/

/-- The fallbacks that may be set last in some order: contributed ones with the greatest name, and
the earlier one if none was contributed. -/
inductive MayFallBack (cs l : List ContributedHandler) : Option ExceptionHandler → Prop
  | contributed {c : ContributedHandler} (hc : c ∈ l) (hfallback : c.asFallback = true)
      (hlast : ∀ d ∈ l, d.asFallback = true → d.name ≤ c.name) :
      MayFallBack cs l (some c.handler)
  | earlier (hnone : ∀ d ∈ l, d.asFallback = false) : MayFallBack cs l (lastFallback? cs)

theorem lastFallback?_eq_none (hnone : ∀ d ∈ l, d.asFallback = false) :
    lastFallback? l = none := by
  have hempty : l.filter (·.asFallback) = [] :=
    List.filter_eq_nil_iff.mpr fun d hd => by simp [hnone d hd]
  rw [lastFallback?, hempty]
  rfl

/-- The last fallback in the order of the names is one with the greatest name. -/
theorem greatest_of_getLast? (hm : m.Perm l)
    (hlast : ((byName m).filter (·.asFallback)).getLast? = some c) :
    c ∈ l ∧ c.asFallback = true ∧ ∀ d ∈ l, d.asFallback = true → d.name ≤ c.name := by
  obtain ⟨init, hsplit⟩ := List.getLast?_eq_some_iff.mp hlast
  have hmem : c ∈ (byName m).filter (·.asFallback) := hsplit ▸ by simp
  obtain ⟨hc, hfallback⟩ := List.mem_filter.mp hmem
  refine ⟨(mem_byName hm).mp hc, hfallback, fun d hd hdfallback => ?_⟩
  have hsorted := (pairwise_byName m).filter (·.asFallback)
  rw [hsplit] at hsorted
  have hd : d ∈ init ++ [c] := hsplit ▸ List.mem_filter.mpr ⟨(mem_byName hm).mpr hd, hdfallback⟩
  rcases List.mem_append.mp hd with hd | hd
  · exact (List.pairwise_append.mp hsorted).2.2 d hd c (List.mem_singleton_self c)
  · obtain rfl := List.mem_singleton.mp hd
    exact String.le_refl _

theorem mayFallBack (hm : m.Perm l) (cs : List ContributedHandler) :
    MayFallBack cs l (lastFallback? (cs ++ byName m)) := by
  rw [lastFallback?_append]
  cases hlast : ((byName m).filter (·.asFallback)).getLast? with
  | none =>
    have hnone : ∀ d ∈ l, d.asFallback = false := by
      intro d hd
      rw [List.getLast?_eq_none_iff, List.filter_eq_nil_iff] at hlast
      simpa using hlast d ((mem_byName hm).mpr hd)
    have hempty : lastFallback? (byName m) = none := by rw [lastFallback?, hlast]; rfl
    rw [hempty, Option.none_or]
    exact .earlier hnone
  | some c =>
    have hsome : lastFallback? (byName m) = some c.handler := by rw [lastFallback?, hlast]; rfl
    rw [hsome, Option.some_or]
    obtain ⟨hc, hfallback, hgreatest⟩ := greatest_of_getLast? hm hlast
    exact .contributed hc hfallback hgreatest

/-- Of the fallbacks with the greatest name, the one that was found last is set last. -/
theorem lastFallback?_byName_append_singleton (hfallback : c.asFallback = true)
    (hlast : ∀ d ∈ l, d.asFallback = true → d.name ≤ c.name) :
    lastFallback? (byName (l ++ [c])) = some c.handler := by
  have hc : c ∈ (byName (l ++ [c])).filter (·.asFallback) :=
    List.mem_filter.mpr ⟨(mem_byName (.refl _)).mpr (by simp), hfallback⟩
  have hx := List.getLast?_eq_some_getLast (List.ne_nil_of_mem hc)
  generalize List.getLast _ (List.ne_nil_of_mem hc) = x at hx
  obtain ⟨hxmem, hxfallback, hgreatest⟩ := greatest_of_getLast? (.refl _) hx
  have hle : x.name ≤ c.name := by
    rcases List.mem_append.mp hxmem with hxmem | hxmem
    · exact hlast x hxmem hxfallback
    · obtain rfl := List.mem_singleton.mp hxmem
      exact String.le_refl _
  have hxname : x.name = c.name := String.le_antisymm hle (hgreatest c (by simp) hfallback)
  -- Among the fallbacks with this name the order is the one in which they were found.
  have hname := congrArg (List.filter (·.asFallback)) (filter_byName (l ++ [c]) c.name)
  obtain ⟨init, hsplit⟩ := List.getLast?_eq_some_iff.mp hx
  rw [List.filter_comm, hsplit, List.filter_append, List.filter_append, List.filter_append] at hname
  simp only [List.filter_cons, hxname, beq_self_eq_true, ↓reduceIte, List.filter_nil,
    hfallback] at hname
  rw [lastFallback?, hx, (List.cons.inj (List.append_inj' hname rfl).2).1]
  rfl

theorem exists_lastFallback?_iff {f : Option ExceptionHandler} :
    (∃ m, m.Perm l ∧ lastFallback? (cs ++ byName m) = f) ↔ MayFallBack cs l f := by
  constructor
  · rintro ⟨m, hm, rfl⟩
    exact mayFallBack hm cs
  · rintro (@⟨c, hc, hfallback, hlast⟩ | hnone)
    · obtain ⟨front, back, rfl⟩ := List.append_of_mem hc
      have hperm : (front ++ back ++ [c]).Perm (front ++ c :: back) :=
        (List.perm_append_singleton c _).trans List.perm_middle.symm
      refine ⟨_, hperm, ?_⟩
      rw [lastFallback?_append, lastFallback?_byName_append_singleton hfallback fun d hd => ?_,
        Option.some_or]
      exact hlast d (by
        rcases List.mem_append.mp hd with hd | hd <;> simp [hd])
    · refine ⟨l, .refl _, ?_⟩
      rw [lastFallback?_append,
        lastFallback?_eq_none fun d hd => hnone d ((mem_byName (.refl _)).mp hd), Option.none_or]

/-! ## Errors -/

variable {e : DispatchError} {cx : ExceptionContext}

theorem refused_perm (hm : m.Perm l) (cs : List ContributedHandler) (x : Cause) :
    Refused (registered (cs ++ byName m)) cx x ↔ Refused (registered (cs ++ l)) cx x := by
  unfold Refused
  simp only [registered_append, List.mem_append, mem_registered, mem_byName hm]

/-- The answers to an error in some order of the contributed handlers: to the first cause that some
handler takes, or that of a fallback. -/
inductive MayAnswer (cs l : List ContributedHandler) (e : DispatchError) (cx : ExceptionContext) :
    Option Outcome → Prop
  | handler {x : Cause} {outer inner : List Cause} {outcome : Outcome}
      (hcauses : e.causes = outer ++ x :: inner)
      (hinner : ∀ y ∈ inner, Refused (registered (cs ++ l)) cx y)
      (htake : MayTake (registered cs) l (·.offer cx x) outcome) :
      MayAnswer cs l e cx (some outcome)
  | fallback {f : Option ExceptionHandler}
      (hrefused : ∀ x ∈ e.causes, Refused (registered (cs ++ l)) cx x)
      (hfallback : MayFallBack cs l f) :
      MayAnswer cs l e cx (f.bind fun h => e.causes.head?.bind fun x => h.handle x cx)

theorem handle_contributed (cs m : List ContributedHandler) (e : DispatchError)
    (cx : ExceptionContext) :
    ((cs.foldl contribute {}).contributeAll m).handle e cx =
      (((cs ++ byName m).foldl contribute {}).answer? e cx).or
        ((lastFallback? (cs ++ byName m)).bind fun h =>
          e.causes.head?.bind fun x => h.handle x cx) := by
  rw [contributeAll_eq, handle_eq, fallback_registered]

/-- The answers to an error in all orders are those that may be given. -/
theorem exists_handle_iff {answer : Option Outcome} :
    (∃ m, m.Perm l ∧ ((cs.foldl contribute {}).contributeAll m).handle e cx = answer) ↔
      MayAnswer cs l e cx answer := by
  constructor
  · rintro ⟨m, hm, rfl⟩
    have ha := askedAs_registered (cs ++ byName m)
    rw [handle_contributed]
    cases hanswer : ((cs ++ byName m).foldl contribute {}).answer? e cx with
    | some outcome =>
      obtain ⟨x, h, ⟨outer, inner, hcauses, hinner⟩, hfirst⟩ :=
        (answer?_eq_some_iff ha e cx outcome).mp hanswer
      rw [registered_append] at hfirst
      exact .handler hcauses (fun y hy => (refused_perm hm cs y).mp (hinner y hy))
        (mayTake_of_firstTo hm hfirst)
    | none =>
      have hrefused := (answer?_eq_none_iff ha e cx).mp hanswer
      exact .fallback (fun x hx => (refused_perm hm cs x).mp (hrefused x hx)) (mayFallBack hm cs)
  · rintro (⟨hcauses, hinner, htake⟩ | ⟨hrefused, hfallback⟩)
    · obtain ⟨m, h, hm, hfirst⟩ := exists_firstTo_of_mayTake htake
      rw [← registered_append] at hfirst
      refine ⟨m, hm, ?_⟩
      rw [handle_contributed, (answer?_eq_some_iff (askedAs_registered _) e cx _).mpr
        ⟨_, h, ⟨_, _, hcauses, fun y hy => (refused_perm hm cs y).mpr (hinner y hy)⟩, hfirst⟩,
        Option.some_or]
    · obtain ⟨m, hm, rfl⟩ := exists_lastFallback?_iff.mpr hfallback
      refine ⟨m, hm, ?_⟩
      rw [handle_contributed, (answer?_eq_none_iff (askedAs_registered _) e cx).mpr
        fun x hx => (refused_perm hm cs x).mpr (hrefused x hx), Option.none_or]

/-- Two contributed handlers tie: they have one name and one role, and one priority unless they are
fallbacks. -/
structure Tied (c d : ContributedHandler) : Prop where
  name : c.name = d.name
  role : c.asFallback = d.asFallback
  priority : c.asFallback = false → c.handler.priority = d.handler.priority

/-- A handler that was registered earlier and a contributed one do not both lead. -/
theorem not_firstTo_of_leads (hfirst : FirstTo hs take h answer)
    (hlast : c.handler.priority < h.priority → take c.handler = none) {answer' : β}
    (htakes : take c.handler = some answer')
    (hearlier : ∀ g ∈ hs, g.priority ≤ c.handler.priority → take g = none) : False := by
  obtain ⟨front, back, rfl, -⟩ := hfirst.registration
  have hle : h.priority ≤ c.handler.priority := by
    refine Int.not_lt.mp fun hlt => ?_
    rw [hlast hlt] at htakes
    cases htakes
  have hnone := hearlier h (by simp) hle
  rw [hfirst.takes] at hnone
  cases hnone

/-- Without different handlers that tie, one answer may be given to a cause. -/
theorem MayTake.unique (ht : ∀ c ∈ l, ∀ d ∈ l, Tied c d → c.handler = d.handler)
    {answer' : β} (h : MayTake (registered cs) l take answer)
    (h' : MayTake (registered cs) l take answer') : answer = answer' := by
  cases h with
  | earlier hfirst hlast =>
    cases h' with
    | earlier hfirst' hlast' =>
      have ha := askedAs_registered cs
      exact Option.some.inj ((ha.findSome?_eq_some_iff.mpr ⟨_, hfirst⟩).symm.trans
        (ha.findSome?_eq_some_iff.mpr ⟨_, hfirst'⟩))
    | contributed hc htyped htakes hearlier hleads =>
      exact (not_firstTo_of_leads hfirst (hlast _ hc htyped) htakes hearlier).elim
  | contributed hc htyped htakes hearlier hleads =>
    cases h' with
    | earlier hfirst' hlast' =>
      exact (not_firstTo_of_leads hfirst' (hlast' _ hc htyped) htakes hearlier).elim
    | contributed hd hdtyped hdtakes hearlier' hleads' =>
      have hcd := hleads _ hd hdtyped (by rw [hdtakes]; exact nofun)
      have hdc := hleads' _ hc htyped (by rw [htakes]; exact nofun)
      rcases hcd with hlt | ⟨hpriority, hle⟩
      · omega
      · rcases hdc with hlt | ⟨-, hge⟩
        · omega
        · have htied : Tied _ _ := ⟨String.le_antisymm hle hge, htyped.trans hdtyped.symm,
            fun _ => hpriority⟩
          rw [ht _ hc _ hd htied, hdtakes] at htakes
          exact (Option.some.inj htakes).symm

/-- A cause that a handler may take is not refused. -/
theorem MayTake.not_refused {x : Cause} {outcome : Outcome}
    (h : MayTake (registered cs) l (·.offer cx x) outcome) :
    ¬ Refused (registered (cs ++ l)) cx x := by
  intro hrefused
  rw [registered_append] at hrefused
  cases h with
  | @earlier h _ hfirst hlast =>
    obtain ⟨front, back, hhs, -⟩ := hfirst.registration
    have hnone := hrefused h (List.mem_append_left _ (hhs ▸ by simp))
    exact Option.some_ne_none _ (hfirst.takes.symm.trans hnone)
  | contributed hc htyped htakes hearlier hleads =>
    have hnone := hrefused _ (List.mem_append_right _ (mem_registered.mpr ⟨_, hc, htyped, rfl⟩))
    exact Option.some_ne_none _ (htakes.symm.trans hnone)

theorem MayFallBack.unique (ht : ∀ c ∈ l, ∀ d ∈ l, Tied c d → c.handler = d.handler)
    {f f' : Option ExceptionHandler} (h : MayFallBack cs l f) (h' : MayFallBack cs l f') :
    f = f' := by
  cases h with
  | contributed hc hfallback hlast =>
    cases h' with
    | contributed hd hdfallback hlast' =>
      refine congrArg some (ht _ hc _ hd ⟨?_, ?_, fun htyped => ?_⟩)
      · exact String.le_antisymm (hlast' _ hc hfallback) (hlast _ hd hdfallback)
      · rw [hfallback, hdfallback]
      · rw [hfallback] at htyped
        cases htyped
    | earlier hnone =>
      rw [hnone _ hc] at hfallback
      cases hfallback
  | earlier hnone =>
    cases h' with
    | contributed hd hdfallback hlast' =>
      rw [hnone _ hd] at hdfallback
      cases hdfallback
    | earlier hnone' => rfl

/-- Without different handlers that tie, one answer may be given to an error. -/
theorem MayAnswer.unique (ht : ∀ c ∈ l, ∀ d ∈ l, Tied c d → c.handler = d.handler)
    {a b : Option Outcome} (h : MayAnswer cs l e cx a) (h' : MayAnswer cs l e cx b) : a = b := by
  cases h with
  | handler hcauses hinner htake =>
    cases h' with
    | handler hcauses' hinner' htake' =>
      -- Both answer to the first cause that is not refused.
      rcases append_eq_append_cons (hcauses.symm.trans hcauses') with
        ⟨more, rfl, -⟩ | ⟨skipped, rfl, hrest⟩
      · rw [List.append_assoc, hcauses', List.append_cancel_left_eq, List.cons_append] at hcauses
        exact absurd (hinner' _ (by simp [(List.cons.inj hcauses).2])) htake.not_refused
      · cases skipped with
        | nil =>
          obtain ⟨rfl, -⟩ := List.cons.inj hrest
          rw [htake.unique ht htake']
        | cons y skipped =>
          exact absurd (hinner _ (by simp [(List.cons.inj hrest).2])) htake'.not_refused
    | fallback hrefused hfallback =>
      exact absurd (hrefused _ (by simp [hcauses])) htake.not_refused
  | fallback hrefused hfallback =>
    cases h' with
    | handler hcauses' hinner' htake' =>
      exact absurd (hrefused _ (by simp [hcauses'])) htake'.not_refused
    | fallback hrefused' hfallback' => rw [hfallback.unique ht hfallback']

/-- **Contributed handlers.** Some order of the contributed handlers gives an answer to an error iff
it is that of a handler that may answer: the first cause that any handler takes is answered by one
that takes it, with the smallest priority, registered earlier if possible and else with the smallest
name; without one, the answer is that of a fallback with the greatest name, or of the earlier one.
So the order makes no difference iff those that may answer all give the same answer; and so they do
for all errors if no two different handlers tie in name, role and priority, as with different
names. -/
theorem handle_contributeAll (cs l : List ContributedHandler) :
    (∀ e cx answer,
      (∃ m, m.Perm l ∧ ((cs.foldl contribute {}).contributeAll m).handle e cx = answer) ↔
        MayAnswer cs l e cx answer) ∧
    (∀ e cx, (∀ m m', m.Perm l → m'.Perm l →
        ((cs.foldl contribute {}).contributeAll m).handle e cx =
          ((cs.foldl contribute {}).contributeAll m').handle e cx) ↔
      ∀ a b, MayAnswer cs l e cx a → MayAnswer cs l e cx b → a = b) ∧
    ((∀ c ∈ l, ∀ d ∈ l, Tied c d → c.handler = d.handler) →
      ∀ e cx m m', m.Perm l → m'.Perm l →
        ((cs.foldl contribute {}).contributeAll m).handle e cx =
          ((cs.foldl contribute {}).contributeAll m').handle e cx) ∧
    ((l.map (·.name)).Nodup → ∀ c ∈ l, ∀ d ∈ l, Tied c d → c.handler = d.handler) := by
  refine ⟨fun e cx answer => exists_handle_iff, fun e cx => ⟨fun h a b ha hb => ?_, ?_⟩,
    fun ht e cx m m' hm hm' => ?_, fun hn c hc d hd htied => ?_⟩
  · obtain ⟨m, hm, rfl⟩ := exists_handle_iff.mpr ha
    obtain ⟨m', hm', rfl⟩ := exists_handle_iff.mpr hb
    exact h m m' hm hm'
  · intro h m m' hm hm'
    exact h _ _ (exists_handle_iff.mp ⟨m, hm, rfl⟩) (exists_handle_iff.mp ⟨m', hm', rfl⟩)
  · exact MayAnswer.unique ht (exists_handle_iff.mp ⟨m, hm, rfl⟩)
      (exists_handle_iff.mp ⟨m', hm', rfl⟩)
  · rw [List.inj_on_of_nodup_map hn hc hd htied.name]

/-- Two pages for missing records under one name. -/
def missingPages : List ContributedHandler :=
  [{ name := "missing"
     handler := .typed "missing" "RecordNotFound" (fun _ _ => some (.toPath "/missing")) 100 },
    { name := "missing"
      handler := .typed "missing" "RecordNotFound" (fun _ _ => some (.toPath "/gone")) 100 }]

theorem byName_eq_self (h : l.Pairwise fun a b => a.name ≤ b.name) : byName l = l :=
  List.mergeSort_of_pairwise (h.imp decide_eq_true)

/-- Of two pages with one name the one that is found first answers. Pages with different names
answer alike in both orders. -/
theorem handle_contributeAll_missingPages :
    missingPages.reverse.Perm missingPages ∧
    (contributeAll {} missingPages).handle failedQuery { path := "/bugs" } =
      some (.toPath "/missing") ∧
    (contributeAll {} missingPages.reverse).handle failedQuery { path := "/bugs" } =
      some (.toPath "/gone") ∧
    MayAnswer [] missingPages failedQuery { path := "/bugs" } (some (.toPath "/gone")) ∧
    (recordPages.map (·.name)).Nodup ∧
    (contributeAll {} recordPages.reverse).handle failedQuery { path := "/bugs" } =
      (contributeAll {} recordPages).handle failedQuery { path := "/bugs" } := by
  have hsame : byName missingPages = missingPages := byName_eq_self (by decide)
  have hswapped : byName missingPages.reverse = missingPages.reverse := byName_eq_self (by decide)
  have hgone : (contributeAll {} missingPages.reverse).handle failedQuery { path := "/bugs" } =
      some (.toPath "/gone") := by
    rw [contributeAll, ← byName, hswapped]
    decide
  have hn : (recordPages.map (·.name)).Nodup := by decide
  obtain ⟨hanswers, -, -⟩ := handle_contributeAll [] missingPages
  obtain ⟨-, -, halike, hdistinct⟩ := handle_contributeAll [] recordPages
  refine ⟨.swap .., ?_, hgone, (hanswers _ _ _).mp ⟨_, .swap .., hgone⟩, hn,
    halike (hdistinct hn) _ _ _ _ (.swap ..) (.refl _)⟩
  rw [contributeAll, ← byName, hsame]
  decide

end Formwork.ExceptionRegistry
