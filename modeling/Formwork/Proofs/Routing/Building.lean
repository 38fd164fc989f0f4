import Formwork.Proofs.Except
import Formwork.Proofs.Routing.Router

/-!
# Which actions make up a router

- **Patterns** (`AddressPattern.parse_eq_ok_iff`): a text is read as a pattern iff it starts with a
  slash, has a segment, and every segment is free of braces or one name in braces.
- **Handlers** (`Action.checkHandlers_eq_ok_iff`): the events are distinct, and at most one of them
  is the default.
- **Clashes** (`clashes_iff`): two patterns are ambiguous iff some path matches both with one
  priority. The path takes a segment from each place of the two patterns (`exists_accepted`).
- **Building** (`exists_build_iff`): nothing else keeps actions from making up a router, and a
  repeated binding is reported only of patterns that clash.
-/

namespace Formwork

/-! ## Patterns as they are written -/

/-- A text without braces. -/
def BraceFree (s : String) : Prop := ∀ c ∈ s.toList, AddressPattern.isBrace c = false

/-- How a segment of a pattern is written: a literal as it is, a parameter in braces. -/
inductive PatternSegment.Writes : PatternSegment → String → Prop
  | literal {text : String} : BraceFree text → Writes (.literal text) text
  | parameter {name : String} : name ≠ "" → BraceFree name →
    Writes (.parameter name) ("\x7b" ++ name ++ "\x7d")

namespace AddressPattern

theorem bracedName?_eq_some_iff {l name : List Char} :
    bracedName? l = some name ↔ l = '\x7b' :: (name ++ ['\x7d']) := by
  unfold bracedName?
  split
  · next rest =>
    rw [List.cons.injEq, eq_self, true_and]
    constructor
    · intro h
      split at h
      · next hlast =>
        obtain ⟨front, rfl⟩ := List.getLast?_eq_some_iff.mp hlast
        rw [List.dropLast_concat] at h
        rw [Option.some.inj h]
      · cases h
    · rintro rfl
      simp
  · next hne =>
    refine iff_of_false (by simp) fun h => ?_
    exact hne _ h

theorem any_isBrace_eq_false_iff {s : String} : s.toList.any isBrace = false ↔ BraceFree s := by
  rw [List.any_eq_false]
  simp only [Bool.not_eq_true]
  rfl

theorem readSegment_eq_ok_iff {s : String} {p : PatternSegment} :
    readSegment s = .ok p ↔ p.Writes s := by
  unfold readSegment
  cases hb : bracedName? s.toList with
  | some name =>
    have hs : s = "\x7b" ++ String.ofList name ++ "\x7d" := by
      rw [← String.toList_inj, bracedName?_eq_some_iff.mp hb]
      simp
    constructor
    · intro h
      dsimp only at h
      split at h
      · cases h
      · next hname =>
        rw [Bool.or_eq_true, not_or, Bool.not_eq_true, Bool.not_eq_true] at hname
        cases h
        rw [hs]
        refine .parameter (fun he => ?_) (any_isBrace_eq_false_iff.mp (by simpa using hname.2))
        rw [String.ofList_eq_empty_iff] at he
        simp [he] at hname
    · intro h
      cases h with
      | literal hfree =>
        have := hfree '\x7b' (by rw [hs]; simp)
        simp [isBrace] at this
      | @parameter name' hne hfree =>
        have hname : name = name'.toList := by
          have := bracedName?_eq_some_iff.mp hb
          simpa using this.symm
        have hempty : name'.toList.isEmpty = false := by simpa using hne
        simp [hname, hempty, any_isBrace_eq_false_iff.mpr hfree]
  | none =>
    constructor
    · intro h
      dsimp only at h
      split at h
      · cases h
      · next hfree =>
        cases h
        exact .literal (any_isBrace_eq_false_iff.mp (by simpa using hfree))
    · intro h
      cases h with
      | literal hfree => simp [any_isBrace_eq_false_iff.mpr hfree]
      | @parameter name _ _ =>
        have hname : ("\x7b" ++ name ++ "\x7d").toList = '\x7b' :: (name.toList ++ ['\x7d']) := by
          simp
        rw [bracedName?_eq_some_iff.mpr hname] at hb
        cases hb

theorem parse_eq_ok_iff {text : String} {p : AddressPattern} :
    parse text = .ok p ↔ text.toList.head? = some '/' ∧ p.text = text ∧ p.segments ≠ [] ∧
      List.Forall₂ PatternSegment.Writes p.segments (pathSegments text) := by
  unfold parse
  by_cases hslash : text.toList.head? = some '/'
  · simp only [hslash, bne_self_eq_false, Bool.false_eq_true, ↓reduceIte, true_and]
    have hread : ∀ segments, (pathSegments text).mapM readSegment = .ok segments ↔
        List.Forall₂ PatternSegment.Writes segments (pathSegments text) := by
      intro segments
      rw [mapM_eq_ok_iff]
      simp only [readSegment_eq_ok_iff]
      exact ⟨List.Forall₂.flip, List.Forall₂.flip⟩
    obtain ⟨t, ss⟩ := p
    cases hm : (pathSegments text).mapM readSegment with
    | error e =>
      refine iff_of_false (by simp) ?_
      rintro ⟨-, -, hw⟩
      rw [(hread _).mpr hw] at hm
      cases hm
    | ok segments =>
      have hw := (hread _).mp hm
      constructor
      · intro h
        cases segments with
        | nil => cases h
        | cons first rest =>
          cases h
          exact ⟨rfl, List.cons_ne_nil _ _, hw⟩
      · rintro ⟨ht, hne, hw'⟩
        obtain rfl : segments = ss := Except.ok.inj (hm.symm.trans ((hread _).mpr hw'))
        obtain rfl : t = text := ht
        cases segments with
        | nil => exact absurd rfl hne
        | cons first rest => rfl
  · refine iff_of_false ?_ fun h => hslash h.1
    simp [hslash]

/-- What a text must be like to be read as a pattern. -/
def WellFormed (text : String) : Prop :=
  text.toList.head? = some '/' ∧ pathSegments text ≠ [] ∧
    ∀ s ∈ pathSegments text, BraceFree s ∨
      ∃ name, name ≠ "" ∧ BraceFree name ∧ s = "\x7b" ++ name ++ "\x7d"

theorem exists_writes_iff {s : String} : (∃ p : PatternSegment, p.Writes s) ↔
    BraceFree s ∨ ∃ name, name ≠ "" ∧ BraceFree name ∧ s = "\x7b" ++ name ++ "\x7d" := by
  constructor
  · rintro ⟨p, hp⟩
    cases hp with
    | literal hfree => exact .inl hfree
    | parameter hne hfree => exact .inr ⟨_, hne, hfree, rfl⟩
  · rintro (hfree | ⟨name, hne, hfree, rfl⟩)
    · exact ⟨_, .literal hfree⟩
    · exact ⟨_, .parameter hne hfree⟩

theorem exists_parse_iff {text : String} : (∃ p, parse text = .ok p) ↔ WellFormed text := by
  unfold WellFormed
  simp only [parse_eq_ok_iff, ← exists_writes_iff, ← exists_forall₂_iff]
  constructor
  · rintro ⟨p, hslash, -, hne, hw⟩
    refine ⟨hslash, fun he => hne ?_, p.segments, hw⟩
    rwa [he, List.forall₂_nil_right_iff] at hw
  · rintro ⟨hslash, hne, segments, hw⟩
    refine ⟨⟨text, segments⟩, hslash, rfl, fun he => hne ?_, hw⟩
    have hnil : segments = [] := he
    rwa [hnil, List.forall₂_nil_left_iff] at hw

end AddressPattern

/-! ## Handlers -/

theorem repeatedEvent?_eq_none_iff {seen events : List String} :
    repeatedEvent? seen events = none ↔ events.Nodup ∧ ∀ e ∈ events, e ∉ seen := by
  induction events generalizing seen with
  | nil => simp [repeatedEvent?]
  | cons e rest ih =>
    rw [repeatedEvent?, List.nodup_cons, List.forall_mem_cons]
    split
    · next hs =>
      refine iff_of_false (by simp) ?_
      rintro ⟨-, hns, -⟩
      exact hns (List.contains_iff_mem.mp hs)
    · next hs =>
      have hns : e ∉ seen := fun hm => hs (List.contains_iff_mem.mpr hm)
      rw [ih]
      constructor
      · rintro ⟨hn, hall⟩
        refine ⟨⟨fun hm => hall e hm (List.mem_cons_self ..), hn⟩, hns, fun x hx hxs => ?_⟩
        exact hall x hx (List.mem_cons_of_mem _ hxs)
      · rintro ⟨⟨he, hn⟩, -, hall⟩
        refine ⟨hn, fun x hx hxs => ?_⟩
        rcases List.mem_cons.mp hxs with rfl | hxs
        · exact he hx
        · exact hall x hx hxs

theorem Action.checkHandlers_eq_ok_iff {a : Action} :
    a.checkHandlers = .ok () ↔ (a.handlers.map (·.event)).Nodup ∧
      (a.handlers.filter (·.isDefault)).length ≤ 1 := by
  have hrepeated : repeatedEvent? [] (a.handlers.map (·.event)) = none ↔
      (a.handlers.map (·.event)).Nodup := by
    rw [repeatedEvent?_eq_none_iff]
    exact and_iff_left fun e _ => List.not_mem_nil
  rw [← hrepeated]
  unfold checkHandlers
  cases repeatedEvent? [] (a.handlers.map (·.event)) with
  | some event => simp
  | none =>
    simp only [List.length_map, true_and]
    split
    · next h => exact iff_of_false (by simp) (by omega)
    · next h => exact iff_of_true rfl (by omega)

/-- What an action needs of its own to be part of a router. -/
structure Action.Admissible (a : Action) : Prop where
  events : (a.handlers.map (·.event)).Nodup
  defaults : (a.handlers.filter (·.isDefault)).length ≤ 1
  pattern : AddressPattern.WellFormed a.urlBinding
  rules : ∃ rules, a.bean.rules = .ok rules

theorem UrlBinding.parse_eq_ok_iff {text : String} {target : BeanId} {b : UrlBinding} :
    parse text target = .ok b ↔ AddressPattern.parse text = .ok b.pattern ∧ b.target = target := by
  unfold parse
  obtain ⟨pattern, t⟩ := b
  cases AddressPattern.parse text with
  | ok p => simp [eq_comm]
  | error fault => simp

theorem Action.exists_yields_iff {a : Action} : (∃ e, a.Yields e) ↔ a.Admissible := by
  constructor
  · rintro ⟨e, hh, hb, hr⟩
    obtain ⟨hevents, hdefaults⟩ := checkHandlers_eq_ok_iff.mp hh
    have hpattern := AddressPattern.exists_parse_iff.mp ⟨_, (UrlBinding.parse_eq_ok_iff.mp hb).1⟩
    exact ⟨hevents, hdefaults, hpattern, e.2, hr⟩
  · rintro ⟨hevents, hdefaults, hpattern, rules, hr⟩
    obtain ⟨p, hp⟩ := AddressPattern.exists_parse_iff.mpr hpattern
    exact ⟨(⟨p, a.id⟩, rules), checkHandlers_eq_ok_iff.mpr ⟨hevents, hdefaults⟩,
      UrlBinding.parse_eq_ok_iff.mpr ⟨hp, rfl⟩, hr⟩

/-! ## Clashes -/

namespace PatternSegment

/-- What is in a segment that was read from a pattern. -/
def IsRead (p : PatternSegment) : Prop := ∀ text, p = .literal text → IsPathSegment text

/-- A segment of a path for the places of two patterns. -/
def common : PatternSegment → PatternSegment → String
  | .literal text, _ => text
  | .parameter _, .literal text => text
  | .parameter _, .parameter _ => "x"

theorem admits_common {p q : PatternSegment} (hp : p.IsRead) (hq : q.IsRead)
    (h : p.overlaps q = true) :
    p.admits (common p q) = true ∧ q.admits (common p q) = true ∧ IsPathSegment (common p q) := by
  cases p with
  | literal a =>
    have ha := hp a rfl
    cases q with
    | literal b =>
      have hab : a = b := by simpa [overlaps] using h
      exact ⟨by simp [admits, common], by simp [admits, common, hab], ha⟩
    | parameter m => exact ⟨by simp [admits, common], by simpa [admits, common] using ha.1, ha⟩
  | parameter n =>
    cases q with
    | literal b =>
      have hb := hq b rfl
      exact ⟨by simpa [admits, common] using hb.1, by simp [admits, common], hb⟩
    | parameter m =>
      refine ⟨by simp [admits, common], by simp [admits, common], by simp [common], ?_⟩
      have hx : ∀ c ∈ "x".toList, c ≠ '/' ∧ c ≠ '?' ∧ c ≠ '#' := by
        intro c hc
        obtain rfl : c = 'x' := List.mem_singleton.mp hc
        decide
      exact hx

end PatternSegment

namespace AddressPattern

variable {p q : AddressPattern}

/-- Two patterns of one length whose places overlap accept the segments of some path. -/
theorem exists_accepted {ps qs : List PatternSegment} (hp : ∀ s ∈ ps, s.IsRead)
    (hq : ∀ s ∈ qs, s.IsRead) (hl : ps.length = qs.length)
    (h : ((ps.zip qs).all fun s => s.1.overlaps s.2) = true) :
    ∃ front, (∀ s ∈ front, IsPathSegment s) ∧
      List.Forall₂ (fun segment s => segment.admits s = true) ps front ∧
      List.Forall₂ (fun segment s => segment.admits s = true) qs front := by
  induction ps generalizing qs with
  | nil =>
    cases qs with
    | nil => exact ⟨[], by simp, .nil, .nil⟩
    | cons b qs => cases hl
  | cons a ps ih =>
    cases qs with
    | nil => cases hl
    | cons b qs =>
      obtain ⟨ha, hps⟩ := List.forall_mem_cons.mp hp
      obtain ⟨hb, hqs⟩ := List.forall_mem_cons.mp hq
      rw [List.zip_cons_cons, List.all_cons, Bool.and_eq_true] at h
      obtain ⟨front, hfront, hpf, hqf⟩ := ih hps hqs (Nat.succ.inj hl) h.2
      obtain ⟨hac, hbc, hc⟩ := PatternSegment.admits_common ha hb h.1
      exact ⟨_ :: front, List.forall_mem_cons.mpr ⟨hc, hfront⟩, .cons hac hpf, .cons hbc hqf⟩

theorem isRead_of_parse {text : String} (h : parse text = .ok p) : ∀ s ∈ p.segments, s.IsRead := by
  obtain ⟨-, -, -, hw⟩ := parse_eq_ok_iff.mp h
  rintro s hs t rfl
  obtain ⟨raw, hraw, hwrites⟩ := exists_of_mem_right hw.flip hs
  cases hwrites
  exact isPathSegment_of_mem hraw

/-- The ambiguity of patterns that were read: some path starts with segments that both accept, and
neither is more specific. -/
theorem ambiguousWith_iff {t u : String} (hp : parse t = .ok p) (hq : parse u = .ok q) :
    p.ambiguousWith q = true ↔ p.specificity = q.specificity ∧ ∃ path front left front' left',
      pathSegments path = front ++ left ∧ p.Accepts front ∧
      pathSegments path = front' ++ left' ∧ q.Accepts front' := by
  constructor
  · intro h
    unfold ambiguousWith at h
    simp only [Bool.and_eq_true, beq_iff_eq] at h
    obtain ⟨⟨hlen, hlit⟩, hover⟩ := h
    obtain ⟨front, hfront, hpf, hqf⟩ :=
      exists_accepted (isRead_of_parse hp) (isRead_of_parse hq) hlen hover
    refine ⟨by rw [specificity, specificity, hlen, hlit],
      "/" ++ String.intercalate "/" front, front, [], front, [], ?_⟩
    rw [pathSegments_joined hfront, List.append_nil]
    exact ⟨rfl, hpf, rfl, hqf⟩
  · rintro ⟨hs, path, front, left, front', left', hf, ha, hf', ha'⟩
    exact ambiguousWith_of_accepts ha ha' (hf.symm.trans hf') hs

end AddressPattern

/-- Some path is matched by the patterns of two actions with as many segments and as many literal
segments. -/
def Action.Clashes (a a' : Action) : Prop :=
  ∃ b c path, UrlBinding.parse a.urlBinding a.id = .ok b ∧
    UrlBinding.parse a'.urlBinding a'.id = .ok c ∧ b.Matches path ∧ c.Matches path ∧
    b.pattern.segments.length = c.pattern.segments.length ∧
    b.pattern.literalCount = c.pattern.literalCount

theorem Action.clashes_iff {a a' : Action} {b c : UrlBinding}
    (hb : UrlBinding.parse a.urlBinding a.id = .ok b)
    (hc : UrlBinding.parse a'.urlBinding a'.id = .ok c) :
    a.Clashes a' ↔ b.pattern.ambiguousWith c.pattern = true := by
  rw [AddressPattern.ambiguousWith_iff (UrlBinding.parse_eq_ok_iff.mp hb).1
    (UrlBinding.parse_eq_ok_iff.mp hc).1]
  constructor
  · rintro ⟨b', c', path, hb', hc', ⟨front, left, hf, ha⟩, ⟨front', left', hf', ha'⟩, hlen, hlit⟩
    obtain rfl := Except.ok.inj (hb.symm.trans hb')
    obtain rfl := Except.ok.inj (hc.symm.trans hc')
    refine ⟨?_, path, front, left, front', left', hf, ha, hf', ha'⟩
    rw [AddressPattern.specificity, AddressPattern.specificity, hlen, hlit]
  · rintro ⟨hs, path, front, left, front', left', hf, ha, hf', ha'⟩
    obtain ⟨hlen, hlit⟩ := Prod.mk.inj (toLex.injective hs)
    exact ⟨b, c, path, hb, hc, ⟨front, left, hf, ha⟩, ⟨front', left', hf', ha'⟩, hlen, hlit⟩

/-! ## Building -/

namespace Router

/-- Among actions that pass their own checks, no two patterns are ambiguous iff no two actions
clash. -/
theorem pairwise_apart_iff {actions : List Action} {entries : List (UrlBinding × RuleSet)}
    (h : List.Forall₂ Action.Yields actions entries) :
    (entries.map (·.1)).Pairwise Apart ↔ actions.Pairwise fun a b => ¬ a.Clashes b := by
  induction h with
  | nil => simp
  | @cons a e actions entries hae hrest ih =>
    have happart : ∀ {a' e'}, Action.Yields a' e' → (Apart e.1 e'.1 ↔ ¬ a.Clashes a') := by
      intro a' e' h'
      rw [Action.clashes_iff hae.binding h'.binding, Bool.not_eq_true]
      rfl
    rw [List.map_cons, List.pairwise_cons, List.pairwise_cons, ih]
    refine and_congr_left fun _ => ?_
    constructor
    · intro hall a' ha'
      obtain ⟨e', he', hy⟩ := exists_of_mem_right hrest.flip ha'
      exact (happart hy).mp (hall _ (List.mem_map_of_mem he'))
    · intro hall b hb
      obtain ⟨e', he', rfl⟩ := List.mem_map.mp hb
      obtain ⟨a', ha', hy⟩ := exists_of_mem_right hrest he'
      exact (happart hy).mpr (hall _ ha')

theorem exists_bindings_iff {actions : List Action} :
    (∃ r, build actions = .ok r) ↔ (actions.map Action.id).Nodup ∧
      (∀ a ∈ actions, a.Admissible) ∧ actions.Pairwise fun a b => ¬ a.Clashes b := by
  simp only [build_eq_ok_iff, ← Action.exists_yields_iff]
  constructor
  · rintro ⟨r, entries, hy, hn, hs, -⟩
    refine ⟨hn, fun a ha => ?_, (pairwise_apart_iff hy).mp hs⟩
    obtain ⟨e, -, he⟩ := exists_of_mem_right hy.flip ha
    exact ⟨e, he⟩
  · rintro ⟨hn, hall, hs⟩
    obtain ⟨entries, hy⟩ := exists_forall₂_iff.mpr hall
    exact ⟨_, entries, hy.flip, hn, (pairwise_apart_iff hy.flip).mpr hs, rfl⟩

/-- What keeps an action from being added to a router. -/
theorem add_eq_error {r : Router} {a : Action} {e : RouterError} (h : r.add a = .error e) :
    e = .duplicateBeanType a.name ∨ a.checkHandlers = .error e ∨
      UrlBinding.parse a.urlBinding a.id = .error e ∨
      (∃ b ∈ r.bindings, ∃ c, UrlBinding.parse a.urlBinding a.id = .ok c ∧
        b.pattern.ambiguousWith c.pattern = true ∧
        e = .duplicateBinding b.pattern.text b.target.name c.pattern.text a.name) ∨
      ∃ cause, a.bean.rules = .error cause ∧ e = .invalidValidation a.name cause := by
  unfold add at h
  by_cases hid : (r.action? a.id).isSome = true
  · rw [if_pos hid] at h
    exact .inl (Except.error.inj h).symm
  · rw [if_neg hid] at h
    refine .inr ?_
    obtain h | ⟨⟨⟩, -, h⟩ := bind_eq_error.mp h
    · exact .inl h
    · obtain h | ⟨c, hc, h⟩ := bind_eq_error.mp h
      · exact .inr (.inl h)
      · refine .inr (.inr ?_)
        split at h
        · next b hb =>
          refine .inl ⟨b, List.mem_of_find?_eq_some hb, c, hc, ?_, (Except.error.inj h).symm⟩
          simpa using List.find?_some hb
        · split at h
          · next cause hr => exact .inr ⟨cause, hr, (Except.error.inj h).symm⟩
          · cases h

theorem ne_duplicateBinding_of_checkHandlers {a : Action} {e : RouterError}
    (h : a.checkHandlers = .error e) (b t c u : String) : e ≠ .duplicateBinding b t c u := by
  unfold Action.checkHandlers at h
  split at h
  · cases h
    rintro ⟨⟩
  · dsimp only at h
    split at h <;> cases h
    rintro ⟨⟩

theorem ne_duplicateBinding_of_parse {text : String} {target : BeanId} {e : RouterError}
    (h : UrlBinding.parse text target = .error e) (b t c u : String) :
    e ≠ .duplicateBinding b t c u := by
  unfold UrlBinding.parse at h
  split at h <;> cases h
  rintro ⟨⟩

/-- A repeated binding is reported of two actions that clash. -/
theorem clashes_of_duplicateBinding {actions : List Action} {b t c u : String}
    (h : build actions = .error (.duplicateBinding b t c u)) :
    ∃ a a', [a, a'].Sublist actions ∧ a.Clashes a' ∧ b = a.urlBinding ∧ t = a.name ∧
      c = a'.urlBinding ∧ u = a'.name := by
  obtain ⟨front, a', back, r, rfl, hfront, ha⟩ := foldlM_eq_error h
  obtain ⟨entries, hy, -, -, rfl⟩ := build_eq_ok_iff.mp hfront
  obtain he | he | he | ⟨x, hx, y, hy', hamb, he⟩ | ⟨cause, -, he⟩ := add_eq_error ha
  · cases he
  · exact absurd rfl (ne_duplicateBinding_of_checkHandlers he b t c u)
  · exact absurd rfl (ne_duplicateBinding_of_parse he b t c u)
  · obtain ⟨e, hm, rfl⟩ := List.mem_map.mp hx
    obtain ⟨a, hafront, hyields⟩ := exists_of_mem_right hy hm
    cases he
    refine ⟨a, a', ?_, (Action.clashes_iff hyields.binding hy').mpr hamb, hyields.text,
      congrArg BeanId.name hyields.target, ?_, rfl⟩
    · exact (List.singleton_sublist.mpr hafront).append
        (List.singleton_sublist.mpr (List.mem_cons_self ..))
    · exact (AddressPattern.parse_eq_ok_iff.mp (UrlBinding.parse_eq_ok_iff.mp hy').1).2.1
  · cases he

/-- **Which actions make up a router.** A router is built from actions iff their bean types are
distinct, the events of each are distinct with at most one default, each pattern is well formed,
each set of rules can be used, and there is no path that the patterns of two actions match with as
many segments and as many literal segments. A repeated binding is reported only if there is such a
path, and names the two. -/
theorem exists_build_iff (actions : List Action) :
    ((∃ r, build actions = .ok r) ↔ (actions.map Action.id).Nodup ∧
      (∀ a ∈ actions, a.Admissible) ∧ actions.Pairwise fun a b => ¬ a.Clashes b) ∧
    ∀ b t c u, build actions = .error (.duplicateBinding b t c u) →
      ∃ a a', [a, a'].Sublist actions ∧ a.Clashes a' ∧ b = a.urlBinding ∧ t = a.name ∧
        c = a'.urlBinding ∧ u = a'.name :=
  ⟨exists_bindings_iff, fun _ _ _ _ h => clashes_of_duplicateBinding h⟩

/-- Two bean types of one name are two types. -/
example : ∃ r, build
    [{ bean := .ofFields ⟨"Edit", "users"⟩ [], urlBinding := "/users/edit" },
      { bean := .ofFields ⟨"Edit", "orders"⟩ [], urlBinding := "/orders/edit" }] = .ok r :=
  ⟨_, rfl⟩

end Router

end Formwork
