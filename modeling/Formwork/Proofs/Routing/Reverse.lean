import Mathlib.Data.List.Nodup
import Formwork.Proofs.Routing.Building

/-!
# The text of a pattern as a path

- **Own text** (`PatternSegment.admits_of_writes`): a segment of a pattern accepts the text that it
  was read from, so a pattern matches its own text and captures its parameters as they are written
  (`UrlBinding.match?_own`).
- **Other patterns** (`AddressPattern.specificity_le_of_accepts`): a literal has no braces, so a
  pattern that accepts what another one is written as has its literals where that one has some. It
  is not more specific.
- **Reverse look-up** (`Router.match?_urlBinding`): so the pattern of a bean type is the one that is
  chosen for its text.
-/

namespace Formwork

/-! ## Segments as they are written -/

namespace PatternSegment

variable {p q : PatternSegment} {s t : String}

theorem admits_of_writes (h : p.Writes s) : p.admits s = true := by
  cases h with
  | literal _ => simp [admits]
  | parameter _ _ => simp [admits]

/-- Whether the segment is a literal. -/
def isLiteral (p : PatternSegment) : Bool := p matches .literal _

/-- What a parameter is written as is the text of no literal. -/
theorem isLiteral_of_admits (hp : p.Writes s) (hq : q.Writes t) (ha : q.admits s = true)
    (hl : q.isLiteral = true) : p.isLiteral = true := by
  cases hp with
  | literal _ => rfl
  | @parameter name _ _ =>
    cases hq with
    | literal hfree =>
      have ht : t = "\x7b" ++ name ++ "\x7d" := by simpa [admits] using ha
      have hbrace : AddressPattern.isBrace '\x7b' = false := hfree _ (by simp [ht])
      exact absurd hbrace (by decide)
    | parameter _ _ => exact absurd hl (by simp [isLiteral])

end PatternSegment

namespace AddressPattern

/-- The names of parameters with the parameters as they are written. -/
def ownCaptures (p : AddressPattern) : List (String × String) :=
  p.parameterNames.map fun name => (name, "\x7b" ++ name ++ "\x7d")

theorem accepts_own {ps : List PatternSegment} {segments : List String}
    (h : List.Forall₂ PatternSegment.Writes ps segments) :
    List.Forall₂ (fun p s => p.admits s = true) ps segments :=
  h.imp fun _ _ => PatternSegment.admits_of_writes

theorem captures_own {p : AddressPattern} {segments : List String}
    (h : List.Forall₂ PatternSegment.Writes p.segments segments) :
    captures p.segments segments = p.ownCaptures := by
  obtain ⟨text, ps⟩ := p
  unfold ownCaptures parameterNames
  dsimp only at h ⊢
  induction h with
  | nil => rfl
  | cons hw _ ih => cases hw <;> simp [ih]

/-- A pattern has no more literals than one that is written with segments it accepts. -/
theorem length_filter_isLiteral_le {ps qs : List PatternSegment} {segments : List String}
    (hp : List.Forall₂ PatternSegment.Writes ps segments) (hq : ∀ q ∈ qs, ∃ t, q.Writes t)
    (ha : List.Forall₂ (fun q s => q.admits s = true) qs segments) :
    (qs.filter PatternSegment.isLiteral).length ≤ (ps.filter PatternSegment.isLiteral).length := by
  induction hp generalizing qs with
  | nil =>
    cases ha
    exact le_rfl
  | @cons p s ps segments hps _ ih =>
    obtain ⟨q, rest, haq, harest, rfl⟩ := List.forall₂_cons_right_iff.mp ha
    obtain ⟨⟨t, hqt⟩, hrest⟩ := List.forall_mem_cons.mp hq
    have hle := ih hrest harest
    by_cases hl : q.isLiteral = true
    · have hpl := PatternSegment.isLiteral_of_admits hps hqt haq hl
      rw [List.filter_cons_of_pos hl, List.filter_cons_of_pos hpl, List.length_cons,
        List.length_cons]
      omega
    · rw [List.filter_cons_of_neg hl, List.filter_cons]
      split
      · exact hle.trans (Nat.le_succ _)
      · exact hle

/-- Of two patterns, the one whose text the other one accepts is at least as specific. -/
theorem specificity_le_of_accepts {p q : AddressPattern} {t u : String} {front left : List String}
    (hp : parse t = .ok p) (hq : parse u = .ok q) (hf : pathSegments t = front ++ left)
    (ha : q.Accepts front) : q.specificity ≤ p.specificity := by
  obtain ⟨-, -, -, hpw⟩ := parse_eq_ok_iff.mp hp
  obtain ⟨-, -, -, hqw⟩ := parse_eq_ok_iff.mp hq
  have hlen : q.segments.length + left.length = p.segments.length := by
    rw [hpw.length_eq, hf, List.length_append, ha.length_eq]
  rw [specificity, specificity, Prod.Lex.toLex_le_toLex]
  cases left with
  | cons s left =>
    rw [List.length_cons] at hlen
    exact .inl (by dsimp only; omega)
  | nil =>
    rw [hf, List.append_nil] at hpw
    refine .inr ⟨by simpa using hlen, ?_⟩
    refine length_filter_isLiteral_le hpw (fun s hs => ?_) ha
    obtain ⟨raw, -, hw⟩ := exists_of_mem_right hqw.flip hs
    exact ⟨raw, hw⟩

end AddressPattern

/-- A pattern matches its own text, with its parameters as the captured values. -/
theorem UrlBinding.match?_own {text : String} {target : BeanId} {b : UrlBinding}
    (h : parse text target = .ok b) :
    b.match? (pathSegments text) = some ⟨b, b.pattern.ownCaptures, none⟩ := by
  obtain ⟨-, -, -, hw⟩ := AddressPattern.parse_eq_ok_iff.mp (parse_eq_ok_iff.mp h).1
  unfold match?
  rw [matchSegments_eq_some_iff.mpr ⟨pathSegments text, (List.append_nil _).symm,
    AddressPattern.accepts_own hw, (AddressPattern.captures_own hw).symm⟩]
  rfl

/-! ## Reverse look-up -/

namespace Router

variable {r : Router} {actions : List Action}

theorem mem_of_action? (h : build actions = .ok r) {type : BeanId} {a : Action}
    (ha : r.action? type = some a) : a ∈ actions ∧ a.id = type := by
  obtain ⟨entries, -, -, -, rfl⟩ := build_eq_ok_iff.mp h
  obtain ⟨⟨a, rules⟩, hf, rfl⟩ := Option.map_eq_some_iff.mp ha
  exact ⟨(List.of_mem_zip (List.mem_of_find?_eq_some hf)).1, by simpa using List.find?_some hf⟩

/-- The bean types are distinct, so each is looked up as the action that declares it. -/
theorem action?_eq_some_iff (h : build actions = .ok r) {type : BeanId} {a : Action} :
    r.action? type = some a ↔ a ∈ actions ∧ a.id = type := by
  refine ⟨mem_of_action? h, ?_⟩
  rintro ⟨ha, rfl⟩
  have hmem : a.id ∈ r.ids := by
    rw [ids_of_build h]
    exact List.mem_map_of_mem ha
  cases hr : r.action? a.id with
  | none => exact absurd hmem (action?_eq_none_iff.mp hr)
  | some a' =>
    obtain ⟨ha', hid⟩ := mem_of_action? h hr
    obtain ⟨-, -, hn, -, -⟩ := build_eq_ok_iff.mp h
    rw [List.inj_on_of_nodup_map hn ha' ha hid]

theorem urlFor?_eq_some_iff (h : build actions = .ok r) {type : BeanId} {text : String} :
    r.urlFor? type = some text ↔ ∃ a ∈ actions, a.id = type ∧ a.urlBinding = text := by
  unfold urlFor?
  simp only [Option.map_eq_some_iff, action?_eq_some_iff h, and_assoc]

/-- The binding that was read from the pattern of an action. -/
theorem exists_binding_of_build (h : build actions = .ok r) {a : Action} (ha : a ∈ actions) :
    ∃ b ∈ r.bindings, UrlBinding.parse a.urlBinding a.id = .ok b := by
  obtain ⟨entries, hy, -, -, rfl⟩ := build_eq_ok_iff.mp h
  obtain ⟨e, he, hae⟩ := exists_of_mem_right hy.flip ha
  exact ⟨e.1, List.mem_map_of_mem he, hae.binding⟩

theorem exists_action_of_binding (h : build actions = .ok r) {b : UrlBinding}
    (hb : b ∈ r.bindings) : ∃ a ∈ actions, UrlBinding.parse a.urlBinding a.id = .ok b := by
  obtain ⟨entries, hy, -, -, rfl⟩ := build_eq_ok_iff.mp h
  obtain ⟨e, he, rfl⟩ := List.mem_map.mp hb
  obtain ⟨a, ha, hae⟩ := exists_of_mem_right hy he
  exact ⟨a, ha, hae.binding⟩

/-- The match of a path with the segments of an action's pattern is that of the pattern. -/
theorem match?_urlBinding (h : build actions = .ok r) {a : Action} (ha : a ∈ actions)
    {path : String} (hpath : pathSegments path = pathSegments a.urlBinding) :
    ∃ b, UrlBinding.parse a.urlBinding a.id = .ok b ∧
      r.match? path = some ⟨b, b.pattern.ownCaptures, none⟩ := by
  have hs := pairwise_apart_of_build h
  obtain ⟨b, hb, hparse⟩ := exists_binding_of_build h ha
  have hown := UrlBinding.match?_own hparse
  rw [← hpath] at hown
  refine ⟨b, hparse, (match?_eq_some_iff hs).mpr ⟨b, hb, hown, fun c hc hne hcm => ?_⟩⟩
  obtain ⟨a', -, hparse'⟩ := exists_action_of_binding h hc
  have hle : c.pattern.specificity ≤ b.pattern.specificity := by
    obtain ⟨front, left, hf, hacc⟩ := hcm
    exact AddressPattern.specificity_le_of_accepts (UrlBinding.parse_eq_ok_iff.mp hparse).1
      (UrlBinding.parse_eq_ok_iff.mp hparse').1 (hpath ▸ hf) hacc
  refine lt_of_le_of_ne hle fun he => hne ?_
  exact eq_of_specificity_eq hs hc hb hcm (UrlBinding.matches_iff.mpr ⟨_, hown⟩) he

/-- **Reverse look-up.** In a router that was built from actions, every action's pattern is looked
up under its bean type, and the pattern that is chosen for the text of a pattern is that pattern,
whatever the other patterns match: with the bean type it was looked up under, with every parameter
captured as it is written, and with nothing left of the path. -/
theorem pattern?_of_urlFor? (h : build actions = .ok r) :
    (∀ a ∈ actions, r.urlFor? a.id = some a.urlBinding) ∧
    ∀ type text, r.urlFor? type = some text → r.pattern? text = some text ∧
      ∃ m, r.match? text = some m ∧ m.binding.target = type ∧
        m.captured = m.binding.pattern.ownCaptures ∧ m.pathInfo = none := by
  refine ⟨fun a ha => (urlFor?_eq_some_iff h).mpr ⟨a, ha, rfl, rfl⟩, fun type text ht => ?_⟩
  obtain ⟨a, ha, rfl, rfl⟩ := (urlFor?_eq_some_iff h).mp ht
  obtain ⟨b, hparse, hm⟩ := match?_urlBinding h ha rfl
  obtain ⟨hpattern, htarget⟩ := UrlBinding.parse_eq_ok_iff.mp hparse
  obtain ⟨-, htext, -, -⟩ := AddressPattern.parse_eq_ok_iff.mp hpattern
  refine ⟨?_, _, hm, htarget, rfl, rfl⟩
  rw [pattern?, hm, Option.map_some, htext]

/-- A pattern with a parameter, a literal in its place, and patterns that these start with and that
start with these. -/
def overlappingPages : List Action :=
  [{ bean := .ofFields "Bugs" [], urlBinding := "/bugs" },
    { bean := .ofFields "NewBug" [], urlBinding := "/bugs/new" },
    { bean := .ofFields "Bug" [], urlBinding := "/bugs/\x7bid\x7d" },
    { bean := .ofFields "Comments" [], urlBinding := "/bugs/\x7bid\x7d/comments" },
    { bean := .ofFields "Section" [], urlBinding := "/\x7barea\x7d" }]

theorem pattern?_of_urlFor?_overlappingPages :
    ∃ r, build overlappingPages = .ok r ∧ r.urlFor? "Bug" = some "/bugs/\x7bid\x7d" ∧
      r.pattern? "/bugs/\x7bid\x7d" = some "/bugs/\x7bid\x7d" := by
  obtain ⟨r, hb⟩ : ∃ r, build overlappingPages = .ok r := ⟨_, rfl⟩
  have hurl : r.urlFor? "Bug" = some "/bugs/\x7bid\x7d" :=
    (urlFor?_eq_some_iff hb).mpr ⟨_, List.mem_cons_of_mem _ (List.mem_cons_of_mem _
      (List.mem_cons_self ..)), rfl, rfl⟩
  exact ⟨r, hb, hurl, ((pattern?_of_urlFor? hb).2 _ _ hurl).1⟩

end Router

end Formwork
