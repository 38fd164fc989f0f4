import Mathlib.Data.List.Forall2
import Mathlib.Data.List.TakeWhile
import Mathlib.Data.Prod.Lex
import Formwork.Routing.Router

/-!
# Patterns and the segments of a path

- **Segments** (`IsPathSegment`): what a path is split into holds neither a slash nor the start of
  a query or a fragment, so segments that are put together again are split the same way
  (`pathSegments_joined`).
- **Matching** (`matchSegments_eq_some_iff`): a pattern matches the segments that start with ones
  it accepts, one by one; filling the captured values in gives these segments (`filled_captures`).
- **Specificity** (`AddressPattern.specificity`): the number of segments, and then the number of
  literal ones. Two patterns of one specificity that match one path are ambiguous
  (`ambiguousWith_of_accepts`).
-/

namespace Formwork

/-! ## Segments of a path -/

/-- A text that a path can have between two slashes. -/
def IsPathSegment (s : String) : Prop :=
  s ≠ "" ∧ ∀ c ∈ s.toList, c ≠ '/' ∧ c ≠ '?' ∧ c ≠ '#'

theorem mem_of_mem_splitOn {a : Char} {l part : List Char} (h : part ∈ l.splitOn a) :
    ∀ c ∈ part, c ≠ a ∧ c ∈ l := by
  induction l generalizing part with
  | nil =>
    rw [List.splitOn_nil, List.mem_singleton] at h
    simp [h]
  | cons d rest ih =>
    intro c hc
    rw [List.splitOn_cons_eq_if_modifyHead] at h
    split at h
    · rcases List.mem_cons.mp h with rfl | h
      · simp at hc
      · exact ⟨(ih h c hc).1, List.mem_cons_of_mem _ (ih h c hc).2⟩
    · next hd =>
      cases hs : rest.splitOn a with
      | nil => exact absurd hs (List.splitOn_ne_nil a rest)
      | cons first more =>
        rw [hs] at h ih
        rcases List.mem_cons.mp h with rfl | h
        · rcases List.mem_cons.mp hc with rfl | hc
          · exact ⟨fun e => hd (by simp [e]), List.mem_cons_self ..⟩
          · have := ih (List.mem_cons_self ..) c hc
            exact ⟨this.1, List.mem_cons_of_mem _ this.2⟩
        · have := ih (List.mem_cons_of_mem _ h) c hc
          exact ⟨this.1, List.mem_cons_of_mem _ this.2⟩

theorem isPathSegment_of_mem {path s : String} (h : s ∈ pathSegments path) : IsPathSegment s := by
  obtain ⟨part, hp, rfl⟩ := List.mem_map.mp h
  obtain ⟨hp, hne⟩ := List.mem_filter.mp hp
  refine ⟨?_, fun c hc => ?_⟩
  · intro he
    have : part = [] := by simpa using congrArg String.toList he
    simp [this] at hne
  · rw [String.toList_ofList] at hc
    obtain ⟨hslash, hc⟩ := mem_of_mem_splitOn hp c hc
    have := List.all_takeWhile (p := fun c => c != '?' && c != '#') (l := path.toList)
    have := List.all_eq_true.mp this c hc
    simp only [Bool.and_eq_true, bne_iff_ne] at this
    exact ⟨hslash, this⟩

theorem mem_intercalate {a c : Char} {l : List (List Char)} (h : c ∈ [a].intercalate l) :
    c = a ∨ ∃ part ∈ l, c ∈ part := by
  induction l with
  | nil => simp at h
  | cons first rest ih =>
    by_cases hr : rest = []
    · subst hr
      rw [List.intercalate_singleton] at h
      exact .inr ⟨first, List.mem_cons_self .., h⟩
    · rw [List.intercalate_cons_of_ne_nil hr, List.append_assoc] at h
      rcases List.mem_append.mp h with h | h
      · exact .inr ⟨first, List.mem_cons_self .., h⟩
      · rcases List.mem_cons.mp h with rfl | h
        · exact .inl rfl
        · exact (ih h).imp_right fun ⟨part, hp, hc⟩ => ⟨part, List.mem_cons_of_mem _ hp, hc⟩

/-- Segments behind slashes are split into the same segments. -/
theorem pathSegments_joined {l : List String} (h : ∀ s ∈ l, IsPathSegment s) :
    pathSegments ("/" ++ String.intercalate "/" l) = l := by
  by_cases hl : l = []
  · subst hl; decide +kernel
  have htext : ("/" ++ String.intercalate "/" l).toList =
      '/' :: ['/'].intercalate (l.map String.toList) := by
    rw [String.toList_append, String.toList_intercalate]; rfl
  have hbare : ∀ c ∈ '/' :: ['/'].intercalate (l.map String.toList), c != '?' && c != '#' := by
    intro c hc
    rcases List.mem_cons.mp hc with rfl | hc
    · decide
    · rcases mem_intercalate hc with rfl | ⟨part, hp, hc⟩
      · decide
      · obtain ⟨s, hs, rfl⟩ := List.mem_map.mp hp
        have := (h s hs).2 c hc
        simp [this]
  have hslash : ∀ part ∈ l.map String.toList, '/' ∉ part := by
    intro part hp hc
    obtain ⟨s, hs, rfl⟩ := List.mem_map.mp hp
    exact ((h s hs).2 '/' hc).1 rfl
  have hkeep : (l.map String.toList).filter (fun s => !s.isEmpty) = l.map String.toList := by
    refine List.filter_eq_self.mpr fun part hp => ?_
    obtain ⟨s, hs, rfl⟩ := List.mem_map.mp hp
    have : s.toList ≠ [] := fun he => (h s hs).1 (String.toList_eq_nil_iff.mp he)
    simp [this]
  unfold pathSegments
  simp only [htext]
  rw [List.takeWhile_eq_self_iff.mpr hbare, List.splitOn_cons_eq_if_modifyHead]
  rw [if_pos (by simp), List.splitOn_intercalate '/' hslash (by simpa using hl)]
  rw [List.filter_cons_of_neg (by simp), hkeep, List.map_map]
  simp

/-! ## Matching -/

/-- The values that the parameters of a pattern capture. -/
def captures (pattern : List PatternSegment) (segments : List String) : List (String × String) :=
  (pattern.zip segments).filterMap fun s => match s.1 with
    | .parameter name => some (name, s.2)
    | .literal _ => none

/-- The segments of a pattern with the captured values in the places of the parameters. -/
def filled : List PatternSegment → List (String × String) → List String
  | [], _ => []
  | .literal text :: rest, captured => text :: filled rest captured
  | .parameter _ :: rest, (_, value) :: captured => value :: filled rest captured
  | .parameter _ :: _, [] => []

/-- Every segment of a path is accepted by the pattern's segment at its place. -/
def AddressPattern.Accepts (p : AddressPattern) (segments : List String) : Prop :=
  List.Forall₂ (fun segment s => segment.admits s = true) p.segments segments

@[simp] theorem captures_cons (p : PatternSegment) (rest : List PatternSegment) (s : String)
    (more : List String) :
    captures (p :: rest) (s :: more) = match p with
      | .parameter name => (name, s) :: captures rest more
      | .literal _ => captures rest more := by
  cases p <;> rfl

theorem matchSegments_eq_some_iff {pattern : List PatternSegment} {segments left : List String}
    {captured : List (String × String)} :
    AddressPattern.matchSegments pattern segments = some (captured, left) ↔
      ∃ front, segments = front ++ left ∧
        List.Forall₂ (fun segment s => segment.admits s = true) pattern front ∧
        captured = captures pattern front := by
  induction pattern generalizing segments captured with
  | nil =>
    simp only [AddressPattern.matchSegments, List.forall₂_nil_left_iff, Option.some.injEq,
      Prod.mk.injEq]
    constructor
    · rintro ⟨rfl, rfl⟩; exact ⟨[], rfl, rfl, rfl⟩
    · rintro ⟨_, rfl, rfl, rfl⟩; exact ⟨rfl, rfl⟩
  | cons p rest ih =>
    cases segments with
    | nil =>
      simp only [AddressPattern.matchSegments, reduceCtorEq, false_iff]
      rintro ⟨front, hf, ha, -⟩
      cases ha
      simp at hf
    | cons s segments =>
      rw [AddressPattern.matchSegments]
      constructor
      · intro h
        split at h
        · next hs =>
          obtain ⟨⟨more, l⟩, hm, he⟩ := Option.map_eq_some_iff.mp h
          obtain rfl : l = left := by cases p <;> exact congrArg Prod.snd he
          obtain ⟨front, rfl, hf, rfl⟩ := ih.mp hm
          refine ⟨s :: front, rfl, .cons hs hf, ?_⟩
          cases p <;> exact (congrArg Prod.fst he).symm
        · cases h
      · rintro ⟨_ | ⟨t, front⟩, hf, ha, rfl⟩
        · cases ha
        · obtain ⟨hs, hrest⟩ := List.forall₂_cons.mp ha
          rw [List.cons_append] at hf
          obtain ⟨rfl, rfl⟩ := List.cons.inj hf
          rw [if_pos hs, ih.mpr ⟨front, rfl, hrest, rfl⟩]
          cases p <;> rfl

/-- Filling what a pattern captured from segments gives the segments. -/
theorem filled_captures {pattern : List PatternSegment} {front : List String}
    (h : List.Forall₂ (fun segment s => segment.admits s = true) pattern front) :
    filled pattern (captures pattern front) = front := by
  induction h with
  | nil => rfl
  | @cons p s rest more hp _ ih =>
    cases p with
    | literal text =>
      have : text = s := by simpa [PatternSegment.admits] using hp
      rw [captures_cons, filled, ih, this]
    | parameter name => rw [captures_cons, filled, ih]

theorem captures_names {pattern : List PatternSegment} {front : List String}
    (h : List.Forall₂ (fun segment s => segment.admits s = true) pattern front) :
    (captures pattern front).map (·.1) = pattern.filterMap fun p => match p with
      | .parameter name => some name
      | .literal _ => none := by
  induction h with
  | nil => rfl
  | @cons p s rest more _ _ ih => cases p <;> simp [captures_cons, ih]

/-! ## Specificity -/

namespace AddressPattern

/-- The number of segments, and then the number of literal segments. -/
def specificity (p : AddressPattern) : Nat ×ₗ Nat := toLex (p.segments.length, p.literalCount)

theorem covers_iff {p q : AddressPattern} : p.covers q = true ↔ q.specificity ≤ p.specificity := by
  unfold covers specificity
  rw [Prod.Lex.toLex_le_toLex]
  simp

theorem overlaps_comm (a b : PatternSegment) : a.overlaps b = b.overlaps a := by
  cases a <;> cases b <;> simp [PatternSegment.overlaps, Bool.beq_comm]

theorem all_overlaps_comm (p q : List PatternSegment) :
    ((p.zip q).all fun s => s.1.overlaps s.2) = ((q.zip p).all fun s => s.1.overlaps s.2) := by
  induction p generalizing q with
  | nil => cases q <;> rfl
  | cons a p ih =>
    cases q with
    | nil => rfl
    | cons b q => simp only [List.zip_cons_cons, List.all_cons, ih q, overlaps_comm a b]

theorem ambiguousWith_comm (p q : AddressPattern) : p.ambiguousWith q = q.ambiguousWith p := by
  unfold ambiguousWith
  rw [all_overlaps_comm, Bool.beq_comm, Bool.beq_comm (a := p.literalCount)]

theorem all_overlaps_of_admits {p q : List PatternSegment} {front : List String}
    (hp : List.Forall₂ (fun segment s => segment.admits s = true) p front)
    (hq : List.Forall₂ (fun segment s => segment.admits s = true) q front) :
    ((p.zip q).all fun s => s.1.overlaps s.2) = true := by
  induction hp generalizing q with
  | nil => cases hq; rfl
  | @cons a s p front ha _ ih =>
    obtain ⟨b, rest, hb, hrest, rfl⟩ := List.forall₂_cons_right_iff.mp hq
    rw [List.zip_cons_cons, List.all_cons, ih hrest, Bool.and_true]
    cases a <;> cases b <;> simp_all [PatternSegment.overlaps, PatternSegment.admits]

/-- Two patterns of one specificity are ambiguous if the segments of some path start with segments
that one accepts and with segments that the other accepts. -/
theorem ambiguousWith_of_accepts {p q : AddressPattern} {front front' left left' : List String}
    (hp : p.Accepts front) (hq : q.Accepts front') (hs : front ++ left = front' ++ left')
    (h : p.specificity = q.specificity) : p.ambiguousWith q = true := by
  obtain ⟨hlen, hlit⟩ := Prod.mk.inj (toLex.injective h)
  obtain ⟨rfl, -⟩ := List.append_inj hs (by
    rw [← List.Forall₂.length_eq hp, ← List.Forall₂.length_eq hq, hlen])
  simp [ambiguousWith, hlen, hlit, all_overlaps_of_admits hp hq]

end AddressPattern

end Formwork
