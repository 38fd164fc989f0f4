import Formwork.Proofs.Text.Pattern.Reader

/-!
# Reading escapes

Every reader of an escape works from left to right: names up to a mark (`readUntil_append`), code
points, properties (`leftToRight_readProperty`), edges of words (`leftToRight_readEdge`), and so an
escape as a whole (`leftToRight_readEscape`).
-/

namespace Formwork.Text

variable {f : PatternFlags} {t u v : List Char}

open LeftToRight

/-! ## Names and numbers of characters -/

/-- Characters up to one of which the parenthesis is an example do not reach it. -/
theorem dropWhile_append_stop {p : Char → Bool} (hp : p ')' = false) (u t : List Char) :
    (u ++ ')' :: t).dropWhile p = u.dropWhile p ++ ')' :: t ∧
      (u ++ ')' :: t).takeWhile p = u.takeWhile p := by
  induction u with
  | nil => simp [hp]
  | cons c u ih =>
    by_cases hc : p c
    · simpa [hc] using ih
    · simp [hc]

theorem readUntil_suffix {mark : Char} {a : List Char × List Char}
    (h : readUntil mark u = some a) : a.2 <:+ u := by
  induction u generalizing a with
  | nil => cases h
  | cons c u ih =>
    rw [readUntil] at h
    split at h
    · obtain rfl := Option.some.inj h
      exact List.suffix_cons c u
    · obtain ⟨b, hb, rfl⟩ := Option.map_eq_some_iff.mp h
      exact (ih hb).trans (List.suffix_cons c u)

/-- A mark is found in front of the parenthesis, or the parenthesis is read with the name. -/
theorem readUntil_append (mark : Char) (hmark : mark ≠ ')') (u t : List Char) :
    (∃ name v, readUntil mark u = some (name, v) ∧
      readUntil mark (u ++ ')' :: t) = some (name, v ++ ')' :: t)) ∨
    (readUntil mark u = none ∧
      ∀ a, readUntil mark (u ++ ')' :: t) = some a → ')' ∈ a.1 ∧ a.2 <:+ t) := by
  induction u with
  | nil =>
    refine .inr ⟨rfl, fun a ha => ?_⟩
    rw [List.nil_append, readUntil, if_neg hmark.symm] at ha
    obtain ⟨b, hb, rfl⟩ := Option.map_eq_some_iff.mp ha
    exact ⟨List.mem_cons_self .., readUntil_suffix (a := b) hb⟩
  | cons c u ih =>
    rw [List.cons_append, readUntil, readUntil]
    by_cases hc : c = mark
    · rw [if_pos hc, if_pos hc]
      exact .inl ⟨[], u, rfl, rfl⟩
    · rw [if_neg hc, if_neg hc]
      rcases ih with ⟨name, v, hnear, hfar⟩ | ⟨hnear, hfar⟩
      · rw [hnear, hfar]
        exact .inl ⟨c :: name, v, rfl, rfl⟩
      · rw [hnear]
        refine .inr ⟨rfl, fun a ha => ?_⟩
        obtain ⟨b, hb, rfl⟩ := Option.map_eq_some_iff.mp ha
        exact ⟨List.mem_cons_of_mem c (hfar b hb).1, (hfar b hb).2⟩

theorem leftToRight_readUntil {mark : Char} (hmark : mark ≠ ')') :
    LeftToRight (readUntil mark) where
  suffix := readUntil_suffix
  alike u t := by
    rcases readUntil_append mark hmark u t with ⟨name, v, hnear, hfar⟩ | ⟨hnear, hfar⟩
    · rw [hnear, hfar]
      exact .same name v
    · exact .beyond (.inl hnear) fun a ha => (hfar a ha).2

theorem leftToRight_readCharacters (count : Nat) : LeftToRight (readCharacters count) where
  suffix {u a} hread := by
    unfold readCharacters at hread
    split at hread
    · cases hread
    · obtain rfl := Option.some.inj hread
      exact List.drop_suffix count u
  alike u t := by
    unfold readCharacters
    by_cases h : u.length < count
    · rw [if_pos h]
      refine .beyond (.inl rfl) fun a ha => ?_
      split at ha
      · cases ha
      · obtain rfl := Option.some.inj ha
        obtain ⟨more, rfl⟩ := Nat.exists_eq_add_of_lt h
        have hdrop : (u ++ ')' :: t).drop (u.length + (more + 1)) = t.drop more :=
          List.drop_length_add_append ..
        exact hdrop ▸ List.drop_suffix more t
    · have hlong : ¬ (u ++ ')' :: t).length < count := by
        rw [List.length_append]
        omega
      rw [if_neg h, if_neg hlong, List.take_append_of_le_length (by omega),
        List.drop_append_of_le_length (by omega)]
      exact .same _ _

/-! ## Escapes -/

theorem leftToRight_readHexEscape (f : PatternFlags) (count : Nat) :
    LeftToRight (readHexEscape f count) := by
  have hbraced := (leftToRight_readUntil (by decide : '\x7d' ≠ ')')).bind fun digits =>
    of_option (Unicode.hexChar? digits) PatternEscape.literal
  have hcounted := (leftToRight_readCharacters count).bind fun digits =>
    of_option ((Unicode.hexChar? digits).filter fun c => f.unicode || count != 2 || c.toNat < 128)
      PatternEscape.literal
  exact of_mark '\x7b' (by decide) hbraced hcounted (fun _ => rfl) rfl fun c u hc => by
    simp [readHexEscape, hc]

theorem leftToRight_readPropertyName : LeftToRight readPropertyName :=
  of_cons rfl fun c => const_none.ite <|
    ((leftToRight_readUntil (by decide)).bind fun name => const (namedProperty? name)).ite <|
      of_option (Unicode.CharProperty.ofName? [c]) fun p => (p, false)

theorem leftToRight_readProperty (f : PatternFlags) (negated : Bool) :
    LeftToRight (readProperty f negated) := by
  unfold readProperty
  exact const_none.ite (leftToRight_readPropertyName.map fun p =>
    PatternEscape.set ((f.fold (.property p.1)).negatedIf (negated != p.2)))

theorem leftToRight_readEdgeName : LeftToRight readEdgeName where
  suffix {u a} hread := by
    unfold readEdgeName at hread
    split at hread
    · next rest hdrop =>
      obtain ⟨t, -, rfl⟩ := Option.map_eq_some_iff.mp hread
      exact (List.suffix_cons _ rest).trans (hdrop ▸ List.dropWhile_suffix _)
    · cases hread
  alike u t := by
    obtain ⟨hdrop, htake⟩ := dropWhile_append_stop (p := isEdgeCharacter) (by decide) u t
    unfold readEdgeName
    rw [hdrop, htake]
    rcases u.dropWhile isEdgeCharacter with - | ⟨c, rest⟩
    · exact .beyond (.inl rfl) (by simp)
    · by_cases hc : c = '\x7d'
      · subst hc
        exact (const (namedEdge? _)).alike rest t
      · exact .beyond (.inl (by simp [hc])) (by simp [hc])

theorem namesEdge_append (u t : List Char) : namesEdge (u ++ ')' :: t) = namesEdge u := by
  rcases u with - | ⟨c, - | ⟨d, u⟩⟩
  · rfl
  · by_cases hc : c = '\x7b'
    · subst hc
      rfl
    · simp [namesEdge, hc]
  · by_cases hc : c = '\x7b'
    · subst hc
      rfl
    · simp [namesEdge, hc]

theorem leftToRight_readEdge (f : PatternFlags) : LeftToRight (readEdge f) where
  suffix {u a} hread := by
    unfold readEdge at hread
    split at hread
    · obtain ⟨b, hname, rfl⟩ := Option.map_eq_some_iff.mp hread
      exact (leftToRight_readEdgeName.suffix hname).trans (List.drop_suffix 1 u)
    · obtain rfl := Option.some.inj hread
      exact List.suffix_rfl
  alike u t := by
    unfold readEdge
    rw [namesEdge_append]
    split
    · next hnames =>
      cases u with
      | nil => cases hnames
      | cons c u => exact (leftToRight_readEdgeName.map PatternEscape.place).alike u t
    · exact .same _ u

theorem leftToRight_readLetterEscape (f : PatternFlags) (c : Char) :
    LeftToRight (readLetterEscape f c) := by
  unfold readLetterEscape
  split
  any_goals exact const_some _
  any_goals exact leftToRight_readHexEscape f _
  any_goals exact leftToRight_readProperty f _
  any_goals exact (const_some _).ite const_none
  · exact leftToRight_readEdge f
  · exact const_none

theorem leftToRight_readEscape (f : PatternFlags) : LeftToRight (readEscape f) :=
  of_cons rfl fun c => (const_some _).ite (leftToRight_readLetterEscape f c)

end Formwork.Text
