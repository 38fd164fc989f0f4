import Mathlib.Data.List.Basic
import Formwork.FieldName
import Formwork.Proofs.Path.Spelling

/-!
# The field of a path

- **Scanning** (`unindexedFrom_append`): what is left out of a text is decided by the brackets that
  are open and by the quote that hides them (`scanned`).
- **Keys** (`Place.SelfContained`): a key without quotes is left as it was entered iff its own
  quotes come in pairs and it opens no bracket outside them.
- **The field** (`fieldName_eq_dotted_iff`): with such keys, the field of a path is the chain of its
  names iff points stand in front of names alone. Behind any other key, names are lost.
-/

namespace Formwork

/-! ## Scanning -/

/-- The brackets that are open after some characters, and the quote that hides what follows. -/
def scanned (depth : Nat) (quote : Option Char) : List Char → Nat × Option Char
  | [] => (depth, quote)
  | c :: rest =>
    match quote with
    | some q => scanned depth (if c = q then none else some q) rest
    | none =>
      if 0 < depth ∧ (c = '\'' ∨ c = '"') then scanned depth (some c) rest
      else if c = '[' then scanned (depth + 1) none rest
      else if c = ']' ∧ 0 < depth then scanned (depth - 1) none rest
      else scanned depth none rest

theorem unindexedFrom_append (depth : Nat) (quote : Option Char) (l m : List Char) :
    unindexedFrom depth quote (l ++ m) = unindexedFrom depth quote l ++
      unindexedFrom (scanned depth quote l).1 (scanned depth quote l).2 m := by
  induction l generalizing depth quote with
  | nil => rfl
  | cons c l ih =>
    cases quote with
    | some q => exact ih depth _
    | none =>
      simp only [List.cons_append, unindexedFrom, scanned]
      split
      · exact ih depth _
      · split
        · exact ih _ none
        · split
          · exact ih _ none
          · split
            · next hd =>
              subst hd
              rw [ih, List.cons_append]
            · exact ih depth none

theorem scanned_append (depth : Nat) (quote : Option Char) (l m : List Char) :
    scanned depth quote (l ++ m) =
      scanned (scanned depth quote l).1 (scanned depth quote l).2 m := by
  induction l generalizing depth quote with
  | nil => rfl
  | cons c l ih =>
    cases quote with
    | some q => exact ih depth _
    | none =>
      simp only [List.cons_append, scanned]
      split
      · exact ih depth _
      · split
        · exact ih _ none
        · split
          · exact ih _ none
          · exact ih depth none

/-- Outside brackets, characters other than brackets are kept. -/
theorem unindexedFrom_outside {l : List Char} (h : ∀ c ∈ l, c ≠ '[') :
    unindexedFrom 0 none l = l ∧ scanned 0 none l = (0, none) := by
  induction l with
  | nil => exact ⟨rfl, rfl⟩
  | cons c l ih =>
    obtain ⟨hkept, hstate⟩ := ih fun d hd => h d (List.mem_cons_of_mem _ hd)
    have hc := h c (List.mem_cons_self ..)
    simp [unindexedFrom, scanned, hc, hkept, hstate]

theorem bracket_not_mem_unindexedFrom (depth : Nat) (quote : Option Char) (l : List Char) :
    ∀ c ∈ unindexedFrom depth quote l, c ≠ '[' := by
  induction l generalizing depth quote with
  | nil => exact fun c hc => nomatch hc
  | cons c l ih =>
    cases quote with
    | some q => exact ih depth _
    | none =>
      simp only [unindexedFrom]
      split
      · exact ih depth _
      · split
        · exact ih _ none
        · next hopen =>
          split
          · exact ih _ none
          · split
            · exact List.forall_mem_cons.mpr ⟨hopen, ih 0 none⟩
            · exact ih depth none

/-- The field of a parameter is a field. -/
theorem fieldName_fieldName (name : String) : fieldName (fieldName name) = fieldName name := by
  unfold fieldName
  rw [String.toList_ofList,
    (unindexedFrom_outside (bracket_not_mem_unindexedFrom 0 none name.toList)).1]

/-- Between quotes, characters are left out up to the quote. -/
theorem unindexedFrom_quoted {q : Char} {l : List Char} (h : q ∉ l) (depth : Nat) :
    unindexedFrom depth (some q) l = [] ∧ scanned depth (some q) l = (depth, some q) := by
  induction l with
  | nil => exact ⟨rfl, rfl⟩
  | cons c l ih =>
    rw [List.mem_cons, not_or] at h
    obtain ⟨hkept, hstate⟩ := ih h.2
    simp [unindexedFrom, scanned, Ne.symm h.1, hkept, hstate]

/-- Inside a bracket that is not closed, characters are left out. -/
theorem unindexedFrom_inside {l : List Char} (h : ']' ∉ l) {depth : Nat} (hd : 0 < depth)
    (quote : Option Char) :
    unindexedFrom depth quote l = [] ∧ depth ≤ (scanned depth quote l).1 := by
  induction l generalizing depth quote with
  | nil => exact ⟨by simp [unindexedFrom], Nat.le_refl _⟩
  | cons c l ih =>
    rw [List.mem_cons, not_or] at h
    cases quote with
    | some q => exact ih h.2 hd _
    | none =>
      simp only [unindexedFrom, scanned]
      split
      · exact ih h.2 hd _
      · split
        · obtain ⟨hkept, hle⟩ := ih h.2 (show 0 < depth + 1 by omega) none
          exact ⟨hkept, by omega⟩
        · rw [if_neg fun he => h.1 he.1.symm, if_neg (by omega), if_neg fun he => h.1 he.1.symm]
          exact ih h.2 hd none

/-- Only quotes hide what follows. -/
theorem isQuote_of_scanned {depth : Nat} {quote : Option Char} (h : ∀ q ∈ quote, IsQuote q)
    (l : List Char) : ∀ q ∈ (scanned depth quote l).2, IsQuote q := by
  induction l generalizing depth quote with
  | nil => exact h
  | cons c l ih =>
    cases quote with
    | some q =>
      refine ih fun r hr => h r ?_
      split at hr
      · cases hr
      · exact hr
    | none =>
      rw [scanned]
      split
      · next hq =>
        refine ih ?_
        rintro r ⟨⟩
        exact hq.2
      · split
        · exact ih h
        · split <;> exact ih h

/-- Characters that close neither a bracket nor a quote are left out inside one. -/
theorem unindexedFrom_hidden {state : Nat × Option Char} (hs : state ≠ (0, none))
    (hq : ∀ q ∈ state.2, IsQuote q) {l : List Char} (hl : ∀ c ∈ l, ¬ IsQuote c ∧ c ≠ ']') :
    unindexedFrom state.1 state.2 l = [] := by
  obtain ⟨depth, quote⟩ := state
  cases quote with
  | none =>
    have hd : 0 < depth := Nat.pos_of_ne_zero fun he => hs (by rw [he])
    exact (unindexedFrom_inside (fun h => (hl _ h).2 rfl) hd none).1
  | some q => exact (unindexedFrom_quoted (fun h => (hl _ h).1 (hq q rfl)) depth).1

/-! ## Keys that stand for themselves -/

/-- The quotes in a text come in pairs and hide all opening brackets, if the text starts inside a
quote or outside of all. -/
def selfContained : Option Char → List Char → Bool
  | none, [] => true
  | some _, [] => false
  | some q, c :: rest => selfContained (if c = q then none else some q) rest
  | none, c :: rest =>
    if IsQuote c then selfContained (some c) rest else c != '[' && selfContained none rest

theorem scanned_inside_iff {l : List Char} (h : ']' ∉ l) {depth : Nat} (hd : 0 < depth)
    (quote : Option Char) :
    scanned depth quote l = (depth, none) ↔ selfContained quote l = true := by
  induction l generalizing quote with
  | nil => cases quote <;> simp [scanned, selfContained]
  | cons c l ih =>
    rw [List.mem_cons, not_or] at h
    cases quote with
    | some q => exact ih h.2 _
    | none =>
      simp only [scanned, selfContained]
      by_cases hq : IsQuote c
      · have hq' : c = '\'' ∨ c = '"' := hq
        rw [if_pos ⟨hd, hq'⟩, if_pos hq]
        exact ih h.2 _
      · have hq' : ¬ (c = '\'' ∨ c = '"') := hq
        rw [if_neg fun he => hq' he.2, if_neg hq]
        by_cases hc : c = '['
        · have hle := (unindexedFrom_inside h.2 (show 0 < depth + 1 by omega) none).2
          rw [if_pos hc]
          refine iff_of_false (fun he => ?_) (by simp [hc])
          rw [he] at hle
          omega
        · rw [if_neg hc, if_neg fun he => h.1 he.1.symm]
          simpa [hc] using ih h.2 none

/-- A key without quotes hides nothing but itself. -/
def Place.SelfContained : Place → Prop
  | .key cs => selfContained none cs = true
  | .name _ | .quoted .. => True

instance : DecidablePred Place.SelfContained
  | .key cs => inferInstanceAs (Decidable (selfContained none cs = true))
  | .name _ | .quoted .. => .isTrue trivial

/-- The name that a place gives. -/
def Place.name? : Place → Option (List Char)
  | .name cs => some cs
  | .key _ | .quoted .. => none

theorem Place.name?_eq_none_iff {p : Place} : p.name? = none ↔ ¬ p.IsName := by
  cases p <;> simp [name?, IsName]

theorem unindexedFrom_place {p : Place} (hp : p.WellFormed) :
    unindexedFrom 0 none p.text = p.name?.getD [] ∧
      (scanned 0 none p.text = (0, none) ↔ p.SelfContained) := by
  cases p with
  | name cs =>
    obtain ⟨hkept, hstate⟩ := unindexedFrom_outside fun c hc => (hp.2 c hc).2.1
    exact ⟨hkept, iff_of_true hstate trivial⟩
  | key cs =>
    obtain ⟨-, -, hcs⟩ := hp
    obtain ⟨hkept, hle⟩ := unindexedFrom_inside hcs Nat.one_pos none
    have hiff := scanned_inside_iff hcs Nat.one_pos none
    show unindexedFrom 1 none (cs ++ [']']) = [] ∧
      (scanned 1 none (cs ++ [']']) = (0, none) ↔ selfContained none cs = true)
    rw [unindexedFrom_append, scanned_append, hkept, ← hiff]
    generalize scanned 1 none cs = state at hle ⊢
    obtain ⟨depth, quote⟩ := state
    have hpos : 0 < depth := hle
    cases quote with
    | none =>
      refine ⟨by simp [unindexedFrom, hpos], ?_⟩
      simp only [scanned, hpos, and_true, true_and, ↓reduceIte, Prod.mk.injEq]
      simp
      omega
    | some q =>
      refine ⟨rfl, iff_of_false (fun he => ?_) (by simp)⟩
      have hdepth : depth = 0 := congrArg Prod.fst he
      omega
  | quoted q cs =>
    obtain ⟨hq, hcs⟩ := hp
    have hq : q = '\'' ∨ q = '"' := hq
    have hopen : ∀ l, unindexedFrom 0 none ('[' :: q :: l) = unindexedFrom 1 (some q) l ∧
        scanned 0 none ('[' :: q :: l) = scanned 1 (some q) l := by
      intro l
      simp [unindexedFrom, scanned, hq]
    obtain ⟨hkept, hstate⟩ := unindexedFrom_quoted hcs 1
    show unindexedFrom 0 none ('[' :: q :: (cs ++ [q, ']'])) = [] ∧
      (scanned 0 none ('[' :: q :: (cs ++ [q, ']'])) = (0, none) ↔ True)
    rw [(hopen _).1, (hopen _).2, unindexedFrom_append, scanned_append, hkept, hstate]
    simp [unindexedFrom, scanned]

/-! ## Whole paths -/

namespace PathStep

/-- The characters of a step that are no part of a key. -/
def shown (t : PathStep) : List Char :=
  (if t.pointed then ['.'] else []) ++ t.place.name?.getD []

/-- The names of steps. -/
def names (w : List PathStep) : List (List Char) := w.filterMap (·.place.name?)

@[simp] theorem names_cons (t : PathStep) (w : List PathStep) :
    names (t :: w) = t.place.name?.toList ++ names w := by
  unfold names
  cases h : t.place.name? <;> simp [h]

theorem unindexedFrom_text {t : PathStep} (ht : t.place.WellFormed) :
    unindexedFrom 0 none t.text = t.shown ∧
      (scanned 0 none t.text = (0, none) ↔ t.place.SelfContained) := by
  obtain ⟨hkept, hiff⟩ := unindexedFrom_place ht
  have hpoint : ∀ pointed : Bool, unindexedFrom 0 none (if pointed then ['.'] else []) =
      (if pointed then ['.'] else []) ∧
      scanned 0 none (if pointed then ['.'] else []) = (0, none) := by decide
  obtain ⟨hp, hs⟩ := hpoint t.pointed
  unfold text shown
  rw [unindexedFrom_append, scanned_append, hp, hs]
  exact ⟨by rw [hkept], hiff⟩

theorem unindexedFrom_written {w : List PathStep} (hw : ∀ t ∈ w, t.place.WellFormed)
    (hc : ∀ t ∈ w, t.place.SelfContained) :
    unindexedFrom 0 none (written w) = w.flatMap shown ∧
      scanned 0 none (written w) = (0, none) := by
  induction w with
  | nil => exact ⟨rfl, rfl⟩
  | cons t w ih =>
    obtain ⟨hkept, hstate⟩ := ih (fun u hu => hw u (List.mem_cons_of_mem _ hu))
      fun u hu => hc u (List.mem_cons_of_mem _ hu)
    obtain ⟨htkept, htstate⟩ := unindexedFrom_text (hw t (List.mem_cons_self ..))
    rw [written_cons, unindexedFrom_append, scanned_append, htkept,
      htstate.mpr (hc t (List.mem_cons_self ..)), hkept, hstate]
    exact ⟨rfl, rfl⟩

/-- A key that hides more than itself leaves the scan inside a bracket or a quote. -/
theorem unindexedFrom_written_last {w : List PathStep} {t : PathStep}
    (hw : ∀ u ∈ w ++ [t], u.place.WellFormed) (hc : ∀ u ∈ w, u.place.SelfContained)
    (ht : ¬ t.place.SelfContained) :
    unindexedFrom 0 none (written (w ++ [t])) = (w ++ [t]).flatMap shown ∧
      scanned 0 none (written (w ++ [t])) ≠ (0, none) := by
  obtain ⟨hkept, hstate⟩ :=
    unindexedFrom_written (fun u hu => hw u (List.mem_append_left _ hu)) hc
  obtain ⟨htkept, htstate⟩ :=
    unindexedFrom_text (hw t (List.mem_append_right _ (List.mem_singleton_self _)))
  have hsplit : written (w ++ [t]) = written w ++ t.text := by simp [written]
  rw [hsplit, unindexedFrom_append, scanned_append, hkept, hstate, htkept]
  exact ⟨by simp, fun he => ht (htstate.mp he)⟩

/-! ## Names and points -/

theorem intercalate_point (first : List Char) (rest : List (List Char)) :
    ['.'].intercalate (first :: rest) = first ++ rest.flatMap ('.' :: ·) := by
  induction rest generalizing first with
  | nil => simp
  | cons next rest ih => rw [List.intercalate_cons_cons, ih]; simp

/-- Each name of well-formed steps has characters, none of which is a point. -/
theorem point_not_mem_of_mem_names {w : List PathStep} (hw : ∀ t ∈ w, t.place.WellFormed)
    {n : List Char} (hn : n ∈ names w) : '.' ∉ n := by
  obtain ⟨⟨_, p⟩, ht, hp⟩ := List.mem_filterMap.mp hn
  cases p with
  | name cs =>
    cases hp
    exact fun h => ((hw _ ht).2 _ h).1 rfl
  | key cs => cases hp
  | quoted q cs => cases hp

theorem count_point_names {l : List (List Char)} (h : ∀ n ∈ l, '.' ∉ n) :
    (l.flatMap ('.' :: ·)).count '.' = l.length := by
  induction l with
  | nil => rfl
  | cons n l ih =>
    have hn : n.count '.' = 0 := List.count_eq_zero.mpr (h n (List.mem_cons_self ..))
    have hl := ih fun m hm => h m (List.mem_cons_of_mem _ hm)
    rw [List.flatMap_cons, List.cons_append, List.count_cons_self, List.count_append, hn, hl,
      List.length_cons]
    omega

theorem count_point_shown {w : List PathStep} (hw : ∀ t ∈ w, t.place.WellFormed) :
    (w.flatMap shown).count '.' = w.countP (·.pointed) := by
  induction w with
  | nil => rfl
  | cons t w ih =>
    have hn : (t.place.name?.getD []).count '.' = 0 := by
      refine List.count_eq_zero.mpr fun h => ?_
      cases hp : t.place.name? with
      | none => simp [hp] at h
      | some n =>
        rw [hp] at h
        exact point_not_mem_of_mem_names (w := [t]) (by simpa using hw t (List.mem_cons_self ..))
          (by simp [hp, names]) h
    have hl := ih fun u hu => hw u (List.mem_cons_of_mem _ hu)
    rw [List.flatMap_cons, List.count_append, hl, List.countP_cons, shown, List.count_append, hn]
    cases t.pointed
    · simp
    · simp only [↓reduceIte, List.count_singleton_self]
      omega

/-- Each name of a step has its point; if there are no more points, only names have one. -/
theorem length_names_le {w : List PathStep} (hw : ∀ t ∈ w, t.WellFormed) :
    (names w).length ≤ w.countP (·.pointed) ∧
      ((names w).length = w.countP (·.pointed) →
        ∀ t ∈ w, t.pointed = true → t.place.IsName) := by
  induction w with
  | nil => exact ⟨Nat.le_refl _, by simp⟩
  | cons t w ih =>
    obtain ⟨hle, heq⟩ := ih fun u hu => hw u (List.mem_cons_of_mem _ hu)
    obtain ⟨-, hn⟩ := hw t (List.mem_cons_self ..)
    rw [names_cons, List.countP_cons]
    obtain ⟨pointed, cs | cs | ⟨q, cs⟩⟩ := t
    · obtain rfl : pointed = true := hn trivial
      simp only [Place.name?, Option.toList_some, List.length_append, List.length_cons,
        List.length_nil, ↓reduceIte]
      refine ⟨by omega, fun h => ?_⟩
      rintro u (_ | ⟨_, hu⟩)
      · exact fun _ => trivial
      · exact heq (by omega) u hu
    all_goals
      simp only [Place.name?, Option.toList_none, List.nil_append]
      refine ⟨by omega, fun h => ?_⟩
      cases pointed with
      | true => simp only [↓reduceIte] at h; omega
      | false =>
        rintro u (_ | ⟨_, hu⟩)
        · exact fun hp => Bool.noConfusion hp
        · exact heq (by simpa using h) u hu

theorem flatMap_shown_eq {w : List PathStep} (hw : ∀ t ∈ w, t.WellFormed)
    (ht : ∀ t ∈ w, t.pointed = true → t.place.IsName) :
    w.flatMap shown = (names w).flatMap ('.' :: ·) := by
  induction w with
  | nil => rfl
  | cons t w ih =>
    have hl := ih (fun u hu => hw u (List.mem_cons_of_mem _ hu))
      fun u hu => ht u (List.mem_cons_of_mem _ hu)
    obtain ⟨-, hn⟩ := hw t (List.mem_cons_self ..)
    have hp := ht t (List.mem_cons_self ..)
    rw [List.flatMap_cons, names_cons, List.flatMap_append, hl]
    congr 1
    obtain ⟨pointed, cs | cs | ⟨q, cs⟩⟩ := t
    · obtain rfl : pointed = true := hn trivial
      simp [shown, Place.name?]
    all_goals
      have hf : pointed = false := by
        cases pointed with
        | true => exact absurd (hp rfl) id
        | false => rfl
      simp [shown, Place.name?, hf]

/-- Steps are the names with a point before each iff only names have a point. -/
theorem flatMap_shown_eq_iff {w : List PathStep} (hw : ∀ t ∈ w, t.WellFormed) :
    w.flatMap shown = (names w).flatMap ('.' :: ·) ↔
      ∀ t ∈ w, t.pointed = true → t.place.IsName := by
  have hwf : ∀ t ∈ w, t.place.WellFormed := fun t ht => (hw t ht).1
  refine ⟨fun h => (length_names_le hw).2 ?_, flatMap_shown_eq hw⟩
  rw [← count_point_shown hwf, h, count_point_names fun n hn => point_not_mem_of_mem_names hwf hn]

/-- Steps are their names with points between them iff there are neither names nor points. -/
theorem flatMap_shown_eq_intercalate_iff {w : List PathStep} (hw : ∀ t ∈ w, t.WellFormed) :
    w.flatMap shown = ['.'].intercalate (names w) ↔
      (∀ t ∈ w, t.pointed = true → t.place.IsName) ∧ names w = [] := by
  have hwf : ∀ t ∈ w, t.place.WellFormed := fun t ht => (hw t ht).1
  have hpoints := count_point_shown hwf
  obtain ⟨hle, heq⟩ := length_names_le hw
  constructor
  · intro h
    cases hl : names w with
    | nil =>
      rw [hl] at h heq
      rw [h] at hpoints
      exact ⟨heq hpoints, rfl⟩
    | cons n rest =>
      -- There is a point for each name, but none before the first one.
      have hnone : ∀ m ∈ n :: rest, '.' ∉ m := fun m hm =>
        point_not_mem_of_mem_names hwf (hl ▸ hm)
      have hfirst : n.count '.' = 0 := List.count_eq_zero.mpr (hnone n (List.mem_cons_self ..))
      have hrest := count_point_names fun m hm => hnone m (List.mem_cons_of_mem _ hm)
      rw [h, hl, intercalate_point, List.count_append, hfirst, hrest] at hpoints
      rw [hl, List.length_cons] at hle
      omega
  · rintro ⟨ht, hl⟩
    rw [flatMap_shown_eq hw ht, hl]
    rfl

/-- Without the points, names are left. -/
theorem filter_shown {w : List PathStep} (hw : ∀ t ∈ w, t.place.WellFormed) :
    (w.flatMap shown).filter (· != '.') = (names w).flatten := by
  induction w with
  | nil => rfl
  | cons t w ih =>
    have hl := ih fun u hu => hw u (List.mem_cons_of_mem _ hu)
    have hpoint : (if t.pointed then ['.'] else []).filter (· != '.') = [] := by
      cases t.pointed <;> rfl
    rw [List.flatMap_cons, List.filter_append, hl, names_cons, List.flatten_append, shown,
      List.filter_append, hpoint, List.nil_append]
    congr 1
    cases hp : t.place.name? with
    | none => rfl
    | some n =>
      have hn := point_not_mem_of_mem_names hw (n := n) (by simp [hp])
      simp only [Option.getD_some, Option.toList_some, List.flatten_singleton]
      exact List.filter_eq_self.mpr fun c hc => bne_iff_ne.mpr fun he => hn (he ▸ hc)

theorem filter_intercalate {l : List (List Char)} (h : ∀ n ∈ l, '.' ∉ n) :
    (['.'].intercalate l).filter (· != '.') = l.flatten := by
  cases l with
  | nil => rfl
  | cons first rest =>
    have hself : ∀ n ∈ first :: rest, n.filter (· != '.') = n := fun n hn =>
      List.filter_eq_self.mpr fun c hc => bne_iff_ne.mpr fun he => h n hn (he ▸ hc)
    rw [intercalate_point, List.filter_append, hself first (List.mem_cons_self ..),
      List.flatten_cons, List.append_cancel_left_eq]
    replace hself : ∀ n ∈ rest, n.filter (· != '.') = n :=
      fun n hn => hself n (List.mem_cons_of_mem _ hn)
    clear h
    induction rest with
    | nil => rfl
    | cons next rest ih =>
      rw [List.flatMap_cons, List.filter_append, List.flatten_cons,
        ih fun n hn => hself n (List.mem_cons_of_mem _ hn)]
      simp [hself next (List.mem_cons_self ..)]

end PathStep

/-- The name of a property. -/
def Segment.name? : Segment → Option String
  | property name => some name
  | index _ => none

namespace PropertyPath

/-- The names of the properties on the way. -/
def names (p : PropertyPath) : List String := p.segments.filterMap Segment.name?

/-- The chain of the names, with points between them. -/
def dotted (p : PropertyPath) : String := String.intercalate "." p.names

end PropertyPath

namespace Spelling

/-- The head as a step. -/
def steps (w : Spelling) : List PathStep := ⟨false, w.head⟩ :: w.tail

theorem text_eq (w : Spelling) : w.text = PathStep.written w.steps := rfl

theorem segments_eq (w : Spelling) : w.segments = PathStep.segments w.steps := rfl

theorem wellFormed_of_mem_steps {w : Spelling} {t : PathStep} (h : t ∈ w.steps) :
    t.place.WellFormed := by
  rcases h with _ | ⟨_, h⟩
  · exact w.head_ok
  · exact (w.tail_ok t h).1

/-- Every key without quotes stands for itself. -/
def SelfContained (w : Spelling) : Prop := ∀ t ∈ w.steps, t.place.SelfContained

/-- Points stand in front of names only, and a path with names starts with one. -/
def Tidy (w : Spelling) : Prop :=
  (∀ t ∈ w.tail, t.pointed = true → t.place.IsName) ∧
    (w.head.IsName ∨ ∀ t ∈ w.tail, ¬ t.place.IsName)

theorem dotted_toList (w : Spelling) {p : PropertyPath} (h : p.segments = w.segments) :
    p.dotted.toList = ['.'].intercalate (PathStep.names w.steps) := by
  have hnames : p.names.map String.toList = PathStep.names w.steps := by
    unfold PropertyPath.names PathStep.names
    rw [h, segments_eq, PathStep.segments, List.filterMap_map, List.map_filterMap]
    refine List.filterMap_congr fun t _ => ?_
    obtain ⟨_, cs | cs | ⟨q, cs⟩⟩ := t <;> simp [Place.segment, Segment.name?, Place.name?]
  unfold PropertyPath.dotted
  rw [String.toList_intercalate, hnames]
  rfl

/-- What stands outside the keys is the chain of the names iff the path is tidy. -/
theorem flatMap_shown_steps_eq_iff (w : Spelling) :
    w.steps.flatMap PathStep.shown = ['.'].intercalate (PathStep.names w.steps) ↔ w.Tidy := by
  have hnone : PathStep.names w.tail = [] ↔ ∀ t ∈ w.tail, ¬ t.place.IsName := by
    unfold PathStep.names
    rw [List.filterMap_eq_nil_iff]
    exact forall₂_congr fun t _ => Place.name?_eq_none_iff
  unfold Tidy steps
  rw [List.flatMap_cons, PathStep.names_cons]
  by_cases hhead : w.head.IsName
  · obtain ⟨n, hn⟩ := Option.ne_none_iff_exists'.mp
      fun hnone => Place.name?_eq_none_iff.mp hnone hhead
    have hshown : PathStep.shown ⟨false, w.head⟩ = n := by simp [PathStep.shown, hn]
    rw [hshown, hn, Option.toList_some, List.singleton_append, PathStep.intercalate_point,
      List.append_cancel_left_eq, PathStep.flatMap_shown_eq_iff w.tail_ok]
    exact (and_iff_left (.inl hhead)).symm
  · have hn := Place.name?_eq_none_iff.mpr hhead
    have hshown : PathStep.shown ⟨false, w.head⟩ = [] := by simp [PathStep.shown, hn]
    rw [hshown, hn, Option.toList_none, List.nil_append, List.nil_append,
      PathStep.flatMap_shown_eq_intercalate_iff w.tail_ok, hnone, or_iff_right hhead]

/-- The path of a property of what another path names. -/
def below (w : Spelling) (name : List Char) (h : (Place.name name).WellFormed) : Spelling where
  head := w.head
  tail := w.tail ++ [⟨true, .name name⟩]
  head_ok := w.head_ok
  tail_ok := by
    intro t ht
    rcases List.mem_append.mp ht with ht | ht
    · exact w.tail_ok t ht
    · obtain rfl := List.mem_singleton.mp ht
      exact ⟨h, fun _ => rfl⟩

theorem text_below (w : Spelling) (name : List Char) (h : (Place.name name).WellFormed) :
    (w.below name h).text = w.text ++ '.' :: name := by
  simp [below, text, PathStep.written, PathStep.text, Place.text]

theorem segments_below (w : Spelling) (name : List Char) (h : (Place.name name).WellFormed) :
    (w.below name h).segments = w.segments ++ [.property (String.ofList name)] := by
  simp [below, segments, PathStep.segments, Place.segment]

theorem names_below (w : Spelling) (name : List Char) (h : (Place.name name).WellFormed) :
    PathStep.names (w.below name h).steps = PathStep.names w.steps ++ [name] := by
  unfold PathStep.names steps below
  rw [← List.cons_append, List.filterMap_append]
  rfl

/-- A path leads through a place on its way to another one. -/
def LeadsTo (outer w : Spelling) : Prop := outer.head = w.head ∧ outer.tail <+: w.tail

theorem SelfContained.of_leadsTo {outer w : Spelling} (h : outer.LeadsTo w)
    (hw : w.SelfContained) : outer.SelfContained := by
  obtain ⟨hhead, htail⟩ := h
  rintro t (_ | ⟨_, ht⟩)
  · exact hhead ▸ hw _ (List.mem_cons_self ..)
  · exact hw t (List.mem_cons_of_mem _ (htail.subset ht))

theorem selfContained_below {w : Spelling} (hw : w.SelfContained) {name : List Char}
    (h : (Place.name name).WellFormed) : (w.below name h).SelfContained := by
  rintro t (_ | ⟨_, ht⟩)
  · exact hw _ (List.mem_cons_self ..)
  · rcases List.mem_append.mp ht with ht | ht
    · exact hw t (List.mem_cons_of_mem _ ht)
    · obtain rfl := List.mem_singleton.mp ht
      trivial

/-- With a name at its end, a path has to start with a name. -/
theorem tidy_below_iff {w : Spelling} {name : List Char} (h : (Place.name name).WellFormed) :
    (w.below name h).Tidy ↔
      w.head.IsName ∧ ∀ t ∈ w.tail, t.pointed = true → t.place.IsName := by
  unfold Tidy below
  constructor
  · rintro ⟨ht, hhead⟩
    refine ⟨hhead.resolve_right fun hall => ?_, fun t hm => ht t (List.mem_append_left _ hm)⟩
    exact hall ⟨true, .name name⟩ (by simp) trivial
  · rintro ⟨hhead, ht⟩
    refine ⟨fun t hm => ?_, .inl hhead⟩
    rcases List.mem_append.mp hm with hm | hm
    · exact ht t hm
    · obtain rfl := List.mem_singleton.mp hm
      exact fun _ => trivial

/-- The scan of a path stops inside a bracket or a quote. -/
def Hides (w : Spelling) : Prop :=
  unindexedFrom 0 none w.text = w.steps.flatMap PathStep.shown ∧
    scanned 0 none w.text ≠ (0, none)

/-- A path with a key that hides more than itself leads through such a place. -/
theorem exists_hides {w : Spelling} (h : ¬ w.SelfContained) :
    ∃ outer : Spelling, outer.LeadsTo w ∧ outer.Hides := by
  by_cases hhead : w.head.SelfContained
  · obtain ⟨t, ht, hnot⟩ : ∃ t ∈ w.tail, ¬ t.place.SelfContained := by
      by_contra hall
      refine h ?_
      rintro t (_ | ⟨_, ht⟩)
      · exact hhead
      · exact not_not.mp fun hnot => hall ⟨t, ht, hnot⟩
    obtain ⟨t, hfind⟩ := Option.isSome_iff_exists.mp (List.find?_isSome.mpr
      (⟨t, ht, by simpa using hnot⟩ : ∃ u ∈ w.tail, (!decide u.place.SelfContained) = true))
    obtain ⟨hnot, front, left, hl, hfront⟩ := List.find?_eq_some_iff_append.mp hfind
    have hpre : front ++ [t] <+: w.tail := ⟨left, by rw [hl]; simp⟩
    let outer : Spelling :=
      ⟨w.head, front ++ [t], w.head_ok, fun u hu => w.tail_ok u (hpre.subset hu)⟩
    refine ⟨outer, ⟨rfl, hpre⟩, ?_⟩
    refine PathStep.unindexedFrom_written_last (w := ⟨false, w.head⟩ :: front)
      (fun u hu => outer.wellFormed_of_mem_steps hu) ?_ (by simpa using hnot)
    rintro u (_ | ⟨_, hu⟩)
    · exact hhead
    · simpa using hfront u hu
  · let outer : Spelling := ⟨w.head, [], w.head_ok, by simp⟩
    refine ⟨outer, ⟨rfl, List.nil_prefix⟩, ?_⟩
    exact PathStep.unindexedFrom_written_last (w := []) (t := ⟨false, w.head⟩)
      (fun u hu => outer.wellFormed_of_mem_steps hu) (by simp) hhead

/-! ## The field of a path -/

/-- The field of a path without keys that hide more than themselves. -/
theorem fieldName_text {w : Spelling} (hc : w.SelfContained) :
    fieldName (String.ofList w.text) = String.ofList (w.steps.flatMap PathStep.shown) := by
  unfold fieldName
  rw [String.toList_ofList, text_eq,
    (PathStep.unindexedFrom_written (fun t ht => wellFormed_of_mem_steps ht) hc).1]

theorem fieldName_text_eq_dotted_iff {w : Spelling} (hc : w.SelfContained) {p : PropertyPath}
    (hp : p.segments = w.segments) :
    fieldName (String.ofList w.text) = p.dotted ↔ w.Tidy := by
  rw [← w.flatMap_shown_steps_eq_iff, ← w.dotted_toList hp, fieldName_text hc]
  constructor
  · intro he
    rw [← he, String.toList_ofList]
  · intro he
    rw [he, String.ofList_toList]

/-- The path of a property under a place, as it is read. -/
theorem parse_below (w : Spelling) {name : List Char} (h : (Place.name name).WellFormed) :
    PropertyPath.parse (String.ofList (w.text ++ '.' :: name)) =
      .ok ⟨String.ofList (w.text ++ '.' :: name), (w.below name h).segments⟩ := by
  refine PropertyPath.parse_eq_ok_iff.mpr ⟨?_, w.below name h, by simp [text_below], rfl⟩
  refine Bool.eq_false_iff.mpr fun hb => ?_
  have hpoint := List.all_eq_true.mp hb '.' (by simp)
  revert hpoint
  decide

/-- Under a place that hides what follows, the field of a property is that of the place. -/
theorem fieldName_below {w : Spelling} (hw : w.Hides) {name : List Char}
    (hname : ∀ c ∈ name, IsNameChar c ∧ ¬ IsQuote c) :
    fieldName (String.ofList (w.text ++ '.' :: name)) = fieldName (String.ofList w.text) := by
  unfold fieldName
  rw [String.toList_ofList, String.toList_ofList, unindexedFrom_append,
    unindexedFrom_hidden hw.2, List.append_nil]
  · exact isQuote_of_scanned (by simp) _
  · rintro c (_ | ⟨_, hc⟩)
    · decide
    · exact ⟨(hname c hc).2, (hname c hc).1.2.2⟩

theorem fieldName_ne_dotted {w : Spelling} (hw : w.Hides) {name : List Char} (hne : name ≠ [])
    (hok : (Place.name name).WellFormed) {p : PropertyPath}
    (hp : p.segments = (w.below name hok).segments) :
    fieldName (String.ofList w.text) ≠ p.dotted := by
  intro he
  have hdotted := dotted_toList (w.below name hok) hp
  have hwf : ∀ t ∈ (w.below name hok).steps, t.place.WellFormed :=
    fun t ht => wellFormed_of_mem_steps ht
  rw [← he, fieldName, String.toList_ofList, String.toList_ofList, hw.1] at hdotted
  -- Without the points, the one side is the names on the way and the other has one name more.
  have hletters := congrArg (List.filter (· != '.')) hdotted
  rw [PathStep.filter_shown fun t ht => wellFormed_of_mem_steps ht,
    PathStep.filter_intercalate fun n hn => PathStep.point_not_mem_of_mem_names hwf hn,
    names_below, List.flatten_append] at hletters
  exact hne (by simpa using hletters)

/-- The field of every property under a place is the chain of its names. -/
def Faithful (w : Spelling) : Prop :=
  ∀ name : List Char, name ≠ [] → (∀ c ∈ name, IsNameChar c ∧ ¬ IsQuote c) →
    ∃ q, PropertyPath.parse (String.ofList (w.text ++ '.' :: name)) = .ok q ∧
      fieldName q.raw = q.dotted

theorem faithful_iff {w : Spelling} :
    (∀ outer : Spelling, outer.LeadsTo w → outer.Faithful) ↔ w.SelfContained ∧
      w.head.IsName ∧ ∀ t ∈ w.tail, t.pointed = true → t.place.IsName := by
  have hplain : ∀ c ∈ ['n'], IsNameChar c ∧ ¬ IsQuote c := by simp [IsNameChar, IsQuote]
  have hok : (Place.name ['n']).WellFormed := by decide
  constructor
  · intro h
    have hc : w.SelfContained := by
      by_contra hnot
      obtain ⟨outer, hlead, hides⟩ := exists_hides hnot
      obtain ⟨q, hq, he⟩ := h outer hlead ['n'] (by simp) hplain
      obtain rfl := Except.ok.inj ((outer.parse_below hok).symm.trans hq)
      rw [fieldName_below hides hplain] at he
      exact fieldName_ne_dotted hides (by simp) hok rfl he
    refine ⟨hc, ?_⟩
    obtain ⟨q, hq, he⟩ := h w ⟨rfl, List.prefix_rfl⟩ ['n'] (by simp) hplain
    obtain rfl := Except.ok.inj ((w.parse_below hok).symm.trans hq)
    rw [← text_below w ['n'] hok,
      fieldName_text_eq_dotted_iff (selfContained_below hc hok) rfl] at he
    exact (tidy_below_iff hok).mp he
  · rintro ⟨hc, hhead, ht⟩ outer hlead name hne hname
    have hok : (Place.name name).WellFormed := ⟨hne, fun c hm => (hname c hm).1⟩
    refine ⟨_, outer.parse_below hok, ?_⟩
    rw [← text_below outer name hok,
      fieldName_text_eq_dotted_iff (selfContained_below (hc.of_leadsTo hlead) hok) rfl,
      tidy_below_iff]
    exact ⟨hlead.1 ▸ hhead, fun t hm => ht t (hlead.2.subset hm)⟩

end Spelling

/-- **The field of a path.** If the keys without quotes stand for themselves, the field of a path is
the chain of its names iff the path is tidy. The field of every property under the places that the
path leads through is the chain of its names iff, moreover, the path starts with a name and points
stand in front of names alone. Behind a key that hides more than itself, a property has the field of
the place that it is in. -/
theorem fieldName_eq_dotted_iff {raw : String} {p : PropertyPath}
    (h : PropertyPath.parse raw = .ok p) :
    (∃ w : Spelling, raw.toList = w.text) ∧ ∀ w : Spelling, raw.toList = w.text →
      p.segments = w.segments ∧
      (w.SelfContained → (fieldName raw = p.dotted ↔ w.Tidy)) ∧
      ((∀ outer : Spelling, outer.LeadsTo w → outer.Faithful) ↔ w.SelfContained ∧
        w.head.IsName ∧ ∀ t ∈ w.tail, t.pointed = true → t.place.IsName) ∧
      (¬ w.SelfContained → ∃ outer : Spelling, outer.LeadsTo w ∧
        ∀ name : List Char, name ≠ [] → (∀ c ∈ name, IsNameChar c ∧ ¬ IsQuote c) →
          ∃ q, PropertyPath.parse (String.ofList (outer.text ++ '.' :: name)) = .ok q ∧
            q.segments = outer.segments ++ [.property (String.ofList name)] ∧
            fieldName q.raw = fieldName (String.ofList outer.text) ∧
            fieldName q.raw ≠ q.dotted) := by
  obtain ⟨hb, w₀, ht₀, -⟩ := PropertyPath.parse_eq_ok_iff.mp h
  refine ⟨⟨w₀, ht₀⟩, fun w ht => ?_⟩
  have hw := PropertyPath.parse_eq_ok_iff.mpr ⟨hb, w, ht, rfl⟩
  obtain rfl := Except.ok.inj (h.symm.trans hw)
  refine ⟨rfl, fun hc => ?_, Spelling.faithful_iff, fun hc => ?_⟩
  · have hraw : raw = String.ofList w.text := by rw [← ht, String.ofList_toList]
    rw [hraw]
    exact Spelling.fieldName_text_eq_dotted_iff hc rfl
  · obtain ⟨outer, hlead, hides⟩ := Spelling.exists_hides hc
    refine ⟨outer, hlead, fun name hne hname => ?_⟩
    have hok : (Place.name name).WellFormed := ⟨hne, fun c hm => (hname c hm).1⟩
    refine ⟨_, outer.parse_below hok, outer.segments_below name hok,
      Spelling.fieldName_below hides hname, ?_⟩
    rw [Spelling.fieldName_below hides hname]
    exact Spelling.fieldName_ne_dotted hides hne hok rfl

/-- A key with one quote in it. -/
def Spelling.loneQuote : Spelling where
  head := .name ['m', 'a', 'p']
  tail := [⟨false, .key ['a', '\'', 'b']⟩, ⟨true, .name ['x']⟩]
  head_ok := by decide
  tail_ok := by decide

theorem fieldName_eq_dotted_iff_loneQuote :
    ∃ p, PropertyPath.parse "map[a'b].x" = .ok p ∧ p.dotted = "map.x" ∧
      fieldName "map[a'b].x" = "map" ∧ ∃ outer : Spelling, outer.LeadsTo .loneQuote ∧
        ∃ q, PropertyPath.parse (String.ofList (outer.text ++ '.' :: ['n'])) = .ok q ∧
          fieldName q.raw ≠ q.dotted := by
  have h : PropertyPath.parse "map[a'b].x" =
      .ok ⟨"map[a'b].x", [.property "map", .index "a'b", .property "x"]⟩ := by decide +kernel
  refine ⟨_, h, by decide +kernel, by decide +kernel, ?_⟩
  have hnot : ¬ Spelling.loneQuote.SelfContained := fun hc =>
    absurd (hc ⟨false, .key ['a', '\'', 'b']⟩ (by simp [Spelling.steps, Spelling.loneQuote]))
      (by decide)
  obtain ⟨outer, hlead, hlost⟩ :=
    ((fieldName_eq_dotted_iff h).2 Spelling.loneQuote (by decide +kernel)).2.2.2 hnot
  obtain ⟨q, hq, -, -, hne⟩ := hlost ['n'] (by simp) (by simp [IsNameChar, IsQuote])
  exact ⟨outer, hlead, q, hq, hne⟩

end Formwork
