import Mathlib.Data.List.Pairwise
import Mathlib.Data.List.Perm.Basic
import Formwork.Proofs.Except
import Formwork.Proofs.Routing.Matching

/-!
# Building a router, and its most specific match

- **Building** (`build_eq_ok_iff`): a router is built iff every action passes its own checks, the
  bean types are distinct and no two patterns are ambiguous. What it then holds follows the order
  of the actions, and nothing else does (`build_perm`).
- **Matching** (`match?_eq_some_iff`): among patterns of which no two are ambiguous, the match that
  is chosen is strictly more specific than any other one, so the order does not count
  (`match?_congr`).
-/

namespace Formwork

/-! ## Building -/

/-- What a router keeps of an action that passes its own checks. -/
structure Action.Yields (a : Action) (e : UrlBinding × RuleSet) : Prop where
  handlers : a.checkHandlers = .ok ()
  binding : UrlBinding.parse a.urlBinding a.id = .ok e.1
  rules : a.bean.rules = .ok e.2

theorem Action.Yields.target {a : Action} {e : UrlBinding × RuleSet} (h : a.Yields e) :
    e.1.target = a.id := by
  have := h.binding
  unfold UrlBinding.parse at this
  split at this
  · rw [← Except.ok.inj this]
  · cases this

theorem Action.Yields.text {a : Action} {e : UrlBinding × RuleSet} (h : a.Yields e) :
    e.1.pattern.text = a.urlBinding := by
  have hb := h.binding
  unfold UrlBinding.parse at hb
  split at hb
  · next p hp =>
    rw [← Except.ok.inj hb]
    unfold AddressPattern.parse at hp
    split at hp
    · cases hp
    · split at hp
      · cases hp
      · cases hp
      · rw [← Except.ok.inj hp]
  · cases hb

namespace Router

/-- The bean types of the actions. -/
def ids (r : Router) : List BeanId := r.actions.map (·.1.id)

theorem action?_eq_none_iff {r : Router} {type : BeanId} :
    r.action? type = none ↔ type ∉ r.ids := by
  unfold action? ids
  rw [Option.map_eq_none_iff, List.find?_eq_none]
  simp only [beq_iff_eq, List.mem_map, not_exists, not_and]

@[simp] theorem ids_append (bindings : List UrlBinding) (actions : List (Action × RuleSet))
    (a : Action) (rules : RuleSet) :
    (⟨bindings, actions ++ [(a, rules)]⟩ : Router).ids =
      (⟨bindings, actions⟩ : Router).ids ++ [a.id] := by
  simp [ids]

/-- The patterns of two bindings are not ambiguous. -/
def Apart (b c : UrlBinding) : Prop := b.pattern.ambiguousWith c.pattern = false

instance : Std.Symm Apart := ⟨fun b c h => by
  unfold Apart at h ⊢; rwa [AddressPattern.ambiguousWith_comm]⟩

theorem add_eq_ok_iff {r r' : Router} {a : Action} :
    r.add a = .ok r' ↔ a.id ∉ r.ids ∧ ∃ e, a.Yields e ∧
      (∀ b ∈ r.bindings, Apart b e.1) ∧
      r' = ⟨r.bindings ++ [e.1], r.actions ++ [(a, e.2)]⟩ := by
  rw [← action?_eq_none_iff]
  unfold add
  cases ha : r.action? a.id with
  | some b => simp [bind, Except.bind, throw, throwThe, MonadExceptOf.throw]
  | none =>
    simp only [Option.isSome_none, Bool.false_eq_true, ↓reduceIte, true_and]
    constructor
    · intro h
      obtain ⟨⟨⟩, hh, h⟩ := bind_eq_ok.mp h
      obtain ⟨b, hb, h⟩ := bind_eq_ok.mp h
      split at h
      · cases h
      · next hf =>
        split at h
        · cases h
        · next rules hr =>
          cases h
          refine ⟨(b, rules), ⟨hh, hb, hr⟩, fun c hc => ?_, rfl⟩
          simpa [Apart] using List.find?_eq_none.mp hf c hc
    · rintro ⟨e, ⟨hh, hb, hr⟩, hs, rfl⟩
      have hf : r.bindings.find? (·.pattern.ambiguousWith e.1.pattern) = none := by
        rw [List.find?_eq_none]
        intro b hb'
        simp [show _ = false from hs b hb']
      simp only [hh, hb, hr, hf, bind, Except.bind]
      rfl

/-- What is left to check and to add when a router already holds some actions. -/
theorem foldlM_add_eq_ok_iff {r₀ r : Router} {actions : List Action} :
    actions.foldlM add r₀ = .ok r ↔ ∃ entries, List.Forall₂ Action.Yields actions entries ∧
      ((∀ a ∈ actions, a.id ∉ r₀.ids) ∧ (actions.map Action.id).Nodup) ∧
      ((∀ b ∈ r₀.bindings, ∀ e ∈ entries, Apart b e.1) ∧
        (entries.map (·.1)).Pairwise Apart) ∧
      r = ⟨r₀.bindings ++ entries.map (·.1), r₀.actions ++ actions.zip (entries.map (·.2))⟩ := by
  induction actions generalizing r₀ with
  | nil =>
    simp only [List.foldlM_nil, List.forall₂_nil_left_iff]
    constructor
    · intro h
      cases h
      exact ⟨[], rfl, by simp, by simp, by simp⟩
    · rintro ⟨_, rfl, -, -, rfl⟩
      simp [pure, Except.pure]
  | cons a rest ih =>
    rw [List.foldlM_cons, bind_eq_ok]
    constructor
    · rintro ⟨r₁, h₁, h⟩
      obtain ⟨hn, e, he, hs, rfl⟩ := add_eq_ok_iff.mp h₁
      obtain ⟨entries, hy, ⟨hfresh, hnodup⟩, ⟨hsep, hpair⟩, rfl⟩ := ih.mp h
      simp only [ids_append, List.mem_append, List.mem_singleton, not_or] at hfresh hsep
      refine ⟨e :: entries, .cons he hy, ⟨?_, ?_⟩, ⟨?_, ?_⟩, by simp⟩
      · rintro b (_ | ⟨_, hb⟩)
        · exact hn
        · exact (hfresh b hb).1
      · refine List.nodup_cons.mpr ⟨fun hm => ?_, hnodup⟩
        obtain ⟨b, hb, hbn⟩ := List.mem_map.mp hm
        exact (hfresh b hb).2 hbn
      · rintro b hb f (_ | ⟨_, hf⟩)
        · exact hs b hb
        · exact hsep b (.inl hb) f hf
      · refine List.pairwise_cons.mpr ⟨fun b hb => ?_, hpair⟩
        obtain ⟨f, hf, rfl⟩ := List.mem_map.mp hb
        exact hsep e.1 (.inr rfl) f hf
    · rintro ⟨_, hall, ⟨hfresh, hnodup⟩, ⟨hsep, hpair⟩, rfl⟩
      obtain ⟨e, entries, he, hy, rfl⟩ := List.forall₂_cons_left_iff.mp hall
      obtain ⟨hna, hnodup⟩ := List.nodup_cons.mp hnodup
      obtain ⟨hea, hpair⟩ := List.pairwise_cons.mp hpair
      refine ⟨_, add_eq_ok_iff.mpr ⟨hfresh a (List.mem_cons_self ..), e, he,
        fun b hb => hsep b hb e (List.mem_cons_self ..), rfl⟩, ih.mpr ⟨entries, hy, ⟨?_, hnodup⟩,
        ⟨?_, hpair⟩, by simp⟩⟩
      · intro b hb hm
        rw [ids_append, List.mem_append, List.mem_singleton] at hm
        rcases hm with hm | hm
        · exact hfresh b (List.mem_cons_of_mem _ hb) hm
        · exact hna (hm ▸ List.mem_map_of_mem hb)
      · intro b hb f hf
        rcases List.mem_append.mp hb with hb | hb
        · exact hsep b hb f (List.mem_cons_of_mem _ hf)
        · obtain rfl := List.mem_singleton.mp hb
          exact hea f.1 (List.mem_map_of_mem hf)

theorem build_eq_ok_iff {r : Router} {actions : List Action} :
    build actions = .ok r ↔ ∃ entries, List.Forall₂ Action.Yields actions entries ∧
      (actions.map Action.id).Nodup ∧ (entries.map (·.1)).Pairwise Apart ∧
      r = ⟨entries.map (·.1), actions.zip (entries.map (·.2))⟩ := by
  rw [build, foldlM_add_eq_ok_iff]
  simp [ids]

theorem pairwise_apart_of_build {r : Router} {actions : List Action} (h : build actions = .ok r) :
    r.bindings.Pairwise Apart := by
  obtain ⟨entries, -, -, hs, rfl⟩ := build_eq_ok_iff.mp h
  exact hs

/-- Actions that make up a router in one order do so in every order, with the same bindings. -/
theorem build_perm {r : Router} {actions actions' : List Action} (h : build actions = .ok r)
    (hp : actions'.Perm actions) :
    ∃ r', build actions' = .ok r' ∧ r'.bindings.Perm r.bindings := by
  obtain ⟨entries, hy, hn, hs, rfl⟩ := build_eq_ok_iff.mp h
  obtain ⟨entries', hy', hp'⟩ := List.perm_comp_forall₂ hp hy
  refine ⟨_, build_eq_ok_iff.mpr ⟨entries', hy', ?_, ?_, rfl⟩, hp'.map _⟩
  · exact (hp.map _).nodup_iff.mpr hn
  · exact (hp'.map _).symm.pairwise hs fun hbc => Std.Symm.symm _ _ hbc

/-! ## The most specific match -/

/-- The choice among matches, from one that is the best so far. -/
theorem foldl_mostSpecific (found : List RouteMatch) (best : RouteMatch) :
    ∃ m ∈ best :: found, found.foldl (fun best m =>
        match best with
        | none => some m
        | some b => if m.binding.pattern.covers b.binding.pattern then some m else some b)
        (some best) = some m ∧
      ∀ x ∈ best :: found, x.binding.pattern.specificity ≤ m.binding.pattern.specificity := by
  induction found generalizing best with
  | nil => exact ⟨best, List.mem_cons_self .., rfl, by simp⟩
  | cons x rest ih =>
    simp only [List.foldl_cons]
    split
    · next hc =>
      obtain ⟨m, hm, he, hle⟩ := ih x
      refine ⟨m, List.mem_cons_of_mem _ hm, he, ?_⟩
      rintro y (_ | ⟨_, hy⟩)
      · exact (AddressPattern.covers_iff.mp hc).trans (hle x (List.mem_cons_self ..))
      · exact hle y hy
    · next hc =>
      obtain ⟨m, hm, he, hle⟩ := ih best
      have hlt := not_le.mp fun h => hc (AddressPattern.covers_iff.mpr h)
      refine ⟨m, ?_, he, ?_⟩
      · rcases List.mem_cons.mp hm with rfl | hm
        · exact List.mem_cons_self ..
        · exact List.mem_cons_of_mem _ (List.mem_cons_of_mem _ hm)
      · rintro y (_ | ⟨_, _ | ⟨_, hy⟩⟩)
        · exact hle best (List.mem_cons_self ..)
        · exact hlt.le.trans (hle best (List.mem_cons_self ..))
        · exact hle y (List.mem_cons_of_mem _ hy)

theorem mostSpecific_cons (first : RouteMatch) (rest : List RouteMatch) :
    ∃ m ∈ first :: rest, mostSpecific (first :: rest) = some m ∧
      ∀ x ∈ first :: rest, x.binding.pattern.specificity ≤ m.binding.pattern.specificity :=
  foldl_mostSpecific rest first

end Router

/-- The pattern accepts the segments that the path starts with. -/
def UrlBinding.Matches (b : UrlBinding) (path : String) : Prop :=
  ∃ front left, pathSegments path = front ++ left ∧ b.pattern.Accepts front

theorem UrlBinding.binding_of_match? {b : UrlBinding} {segments : List String} {m : RouteMatch}
    (h : b.match? segments = some m) : m.binding = b := by
  obtain ⟨_, -, rfl⟩ := Option.map_eq_some_iff.mp h
  rfl

theorem UrlBinding.matches_iff {b : UrlBinding} {path : String} :
    b.Matches path ↔ ∃ m, b.match? (pathSegments path) = some m := by
  unfold Matches match?
  simp only [Option.map_eq_some_iff, Prod.exists, matchSegments_eq_some_iff]
  constructor
  · rintro ⟨front, left, hs, ha⟩
    exact ⟨_, _, left, ⟨front, hs, ha, rfl⟩, rfl⟩
  · rintro ⟨_, _, left, ⟨front, hs, ha, -⟩, -⟩
    exact ⟨front, left, hs, ha⟩

/-- The captured values and what follows the pattern make up the segments of the path. -/
theorem UrlBinding.filled_of_match? {b : UrlBinding} {path : String} {m : RouteMatch}
    (h : b.match? (pathSegments path) = some m) :
    m.captured.map (·.1) = b.pattern.parameterNames ∧
      filled b.pattern.segments m.captured ++ pathSegments (m.pathInfo.getD "") =
        pathSegments path := by
  obtain ⟨⟨captured, left⟩, hm, rfl⟩ := Option.map_eq_some_iff.mp h
  obtain ⟨front, hf, ha, rfl⟩ := matchSegments_eq_some_iff.mp hm
  refine ⟨captures_names ha, ?_⟩
  have hleft : pathSegments ((if left.isEmpty then none
      else some ("/" ++ String.intercalate "/" left)).getD "") = left := by
    cases left with
    | nil => decide +kernel
    | cons s rest =>
      refine pathSegments_joined fun t ht => ?_
      have hmem : t ∈ pathSegments path := by
        rw [hf]
        exact List.mem_append_right _ ht
      exact isPathSegment_of_mem hmem
  rw [filled_captures ha, hleft, hf]

namespace Router

variable {r : Router} {path : String}

/-- Of two bindings that match a path, one is more specific unless they are the same. -/
theorem eq_of_specificity_eq (hs : r.bindings.Pairwise Apart) {b c : UrlBinding}
    (hb : b ∈ r.bindings) (hc : c ∈ r.bindings) (hmb : b.Matches path) (hmc : c.Matches path)
    (h : b.pattern.specificity = c.pattern.specificity) : b = c := by
  by_contra hne
  have hapart : b.pattern.ambiguousWith c.pattern = false := hs.forall hb hc hne
  obtain ⟨front, left, hf, ha⟩ := hmb
  obtain ⟨front', left', hf', ha'⟩ := hmc
  have hamb := AddressPattern.ambiguousWith_of_accepts ha ha' (hf ▸ hf') h
  rw [hapart] at hamb
  cases hamb

theorem match?_eq_none_iff : r.match? path = none ↔ ∀ b ∈ r.bindings, ¬ b.Matches path := by
  unfold match?
  cases hf : r.bindings.filterMap fun b => b.match? (pathSegments path) with
  | nil =>
    refine iff_of_true rfl fun b hb hm => ?_
    obtain ⟨m, hm⟩ := UrlBinding.matches_iff.mp hm
    have : m ∈ r.bindings.filterMap fun b => b.match? (pathSegments path) :=
      List.mem_filterMap.mpr ⟨b, hb, hm⟩
    rw [hf] at this
    cases this
  | cons first rest =>
    obtain ⟨m, hm, he, -⟩ := mostSpecific_cons first rest
    rw [← hf] at hm
    obtain ⟨b, hb, hbm⟩ := List.mem_filterMap.mp hm
    refine iff_of_false (by simp [he]) fun h => h b hb (UrlBinding.matches_iff.mpr ⟨m, hbm⟩)

/-- The chosen match is that of a binding, and strictly more specific than any other one. -/
theorem match?_eq_some_iff (hs : r.bindings.Pairwise Apart) {m : RouteMatch} :
    r.match? path = some m ↔ ∃ b ∈ r.bindings, b.match? (pathSegments path) = some m ∧
      ∀ c ∈ r.bindings, c ≠ b → c.Matches path →
        c.pattern.specificity < b.pattern.specificity := by
  have hchosen : ∀ m, r.match? path = some m → ∃ b ∈ r.bindings,
      b.match? (pathSegments path) = some m ∧ ∀ c ∈ r.bindings, c.Matches path →
        c.pattern.specificity ≤ b.pattern.specificity := by
    intro m h
    unfold match? at h
    cases hf : r.bindings.filterMap fun b => b.match? (pathSegments path) with
    | nil => rw [hf] at h; cases h
    | cons first rest =>
      obtain ⟨m', hm, he, hle⟩ := mostSpecific_cons first rest
      rw [hf, he] at h
      cases h
      rw [← hf] at hm hle
      obtain ⟨b, hb, hbm⟩ := List.mem_filterMap.mp hm
      refine ⟨b, hb, hbm, fun c hc hcm => ?_⟩
      obtain ⟨m', hm'⟩ := UrlBinding.matches_iff.mp hcm
      have := hle m' (List.mem_filterMap.mpr ⟨c, hc, hm'⟩)
      rwa [UrlBinding.binding_of_match? hm', UrlBinding.binding_of_match? hbm] at this
  constructor
  · intro h
    obtain ⟨b, hb, hm, hle⟩ := hchosen m h
    refine ⟨b, hb, hm, fun c hc hne hcm => lt_of_le_of_ne (hle c hc hcm) fun he => hne ?_⟩
    exact eq_of_specificity_eq hs hc hb hcm (UrlBinding.matches_iff.mpr ⟨m, hm⟩) he
  · rintro ⟨b, hb, hm, hlt⟩
    have hbm := UrlBinding.matches_iff.mpr ⟨m, hm⟩
    cases hr : r.match? path with
    | none => exact absurd hbm (match?_eq_none_iff.mp hr b hb)
    | some m' =>
      obtain ⟨b', hb', hm', hle⟩ := hchosen m' hr
      by_cases he : b' = b
      · rw [← hm, ← hm', he]
      · have := hlt b' hb' he (UrlBinding.matches_iff.mpr ⟨m', hm'⟩)
        exact absurd (hle b hb hbm) (not_le.mpr this)

/-- Routers with the same bindings in any order choose the same matches. -/
theorem match?_congr {r' : Router} (hs : r.bindings.Pairwise Apart)
    (hp : r'.bindings.Perm r.bindings) (path : String) : r'.match? path = r.match? path := by
  have hs' : r'.bindings.Pairwise Apart :=
    hp.symm.pairwise hs fun hbc => Std.Symm.symm _ _ hbc
  refine Option.ext fun m => ?_
  simp only [match?_eq_some_iff hs, match?_eq_some_iff hs', hp.mem_iff]

/-! ## The choice of a binding -/

theorem bindings_of_build {actions : List Action} (h : build actions = .ok r) :
    r.bindings.map (fun b => (b.pattern.text, b.target)) =
      actions.map fun a => (a.urlBinding, a.id) := by
  obtain ⟨entries, hy, -, -, rfl⟩ := build_eq_ok_iff.mp h
  simp only [List.map_map]
  clear h
  induction hy with
  | nil => rfl
  | @cons a e rest more he _ ih =>
    simp only [List.map_cons, ih, Function.comp_apply, he.target, he.text]

theorem ids_of_build {actions : List Action} (h : build actions = .ok r) :
    r.ids = actions.map Action.id := by
  obtain ⟨entries, hy, -, -, rfl⟩ := build_eq_ok_iff.mp h
  have hl : actions.length ≤ (entries.map (·.2)).length := by
    rw [List.length_map]; exact hy.length_eq.le
  show (actions.zip (entries.map (·.2))).map (Action.id ∘ Prod.fst) = _
  rw [← List.map_map, List.map_fst_zip hl]

/-- The action of a match is registered. -/
theorem exists_action_of_match? {actions : List Action} (h : build actions = .ok r)
    {m : RouteMatch} (hm : r.match? path = some m) :
    ∃ e, r.actions.find? (·.1.id == m.binding.target) = some e := by
  obtain ⟨b, hb, hbm, -⟩ := (match?_eq_some_iff (pairwise_apart_of_build h)).mp hm
  rw [UrlBinding.binding_of_match? hbm]
  have ht : b.target ∈ r.ids := by
    have hmap := congrArg (List.map Prod.snd) (bindings_of_build h)
    simp only [List.map_map, Function.comp_def] at hmap
    rw [ids_of_build h, ← hmap]
    exact List.mem_map_of_mem hb
  rw [← Option.isSome_iff_exists, List.find?_isSome]
  obtain ⟨e, he, hn⟩ := List.mem_map.mp ht
  exact ⟨e, he, beq_iff_eq.mpr hn⟩

/-- **The choice of a binding.** A router that was built from actions finds a match iff the pattern
of one of them matches. The match that it finds is the one with the most segments, and of those the
one with the most literal segments, strictly before all others; with the captured values filled in,
and with what follows, its pattern gives the segments of the path. So the order of the actions does
not count. -/
theorem match?_most_specific {actions : List Action} (h : build actions = .ok r) :
    r.bindings.map (fun b => (b.pattern.text, b.target)) =
      actions.map (fun a => (a.urlBinding, a.id)) ∧
    (∀ path, (r.match? path).isSome = true ↔ ∃ b ∈ r.bindings, b.Matches path) ∧
    (∀ path m, r.match? path = some m →
      m.binding ∈ r.bindings ∧ m.binding.Matches path ∧
      (∀ b ∈ r.bindings, b ≠ m.binding → b.Matches path →
        b.pattern.specificity < m.binding.pattern.specificity) ∧
      m.captured.map (·.1) = m.binding.pattern.parameterNames ∧
      filled m.binding.pattern.segments m.captured ++ pathSegments (m.pathInfo.getD "") =
        pathSegments path) ∧
    ∀ actions', actions'.Perm actions →
      ∃ r', build actions' = .ok r' ∧ ∀ path, r'.match? path = r.match? path := by
  have hs := pairwise_apart_of_build h
  refine ⟨bindings_of_build h, fun path => ?_, fun path m hm => ?_, fun actions' hp => ?_⟩
  · rw [Option.isSome_iff_ne_none, ne_eq, match?_eq_none_iff]
    simp only [not_forall, not_not, exists_prop]
  · obtain ⟨b, hb, hbm, hlt⟩ := (match?_eq_some_iff hs).mp hm
    obtain rfl := UrlBinding.binding_of_match? hbm
    obtain ⟨hnames, hfilled⟩ := UrlBinding.filled_of_match? hbm
    exact ⟨hb, UrlBinding.matches_iff.mpr ⟨m, hbm⟩, hlt, hnames, hfilled⟩
  · obtain ⟨r', h', hperm⟩ := build_perm h hp
    exact ⟨r', h', match?_congr hs hperm⟩

/-- Two actions with patterns of which one starts with the other. -/
def bugPages : List Action :=
  [{ bean := .ofFields "Bug" [], urlBinding := "/bugs/\x7bid\x7d" },
    { bean := .ofFields "Comments" [], urlBinding := "/bugs/\x7bid\x7d/comments" }]

theorem match?_most_specific_bugPages :
    ∃ r m, build bugPages = .ok r ∧ r.match? "/bugs/7/comments/2?page=1" = some m ∧
      m.binding.target = "Comments" ∧ m.captured = [("id", "7")] ∧ m.pathInfo = some "/2" ∧
      ∀ b ∈ r.bindings, b ≠ m.binding → b.Matches "/bugs/7/comments/2?page=1" →
        b.pattern.specificity < m.binding.pattern.specificity := by
  obtain ⟨r, hb⟩ : ∃ r, build bugPages = .ok r := ⟨_, rfl⟩
  have hr : .ok r = build bugPages := hb.symm
  obtain rfl := Except.ok.inj (hr.trans (rfl : build bugPages = .ok _))
  refine ⟨_, _, hb, rfl, rfl, rfl, rfl, ?_⟩
  exact ((match?_most_specific hb).2.2.1 _ _ rfl).2.2.1

end Router

end Formwork
