import Formwork.Text.Pattern.Parser
import Mathlib.Tactic.SplitIfs

/-!
# Readers of patterns

Whether a part of a pattern can be read apart from what stands behind it. A reader takes a text and
gives what it has read and the rest.

- **Blanks and comments** (`PatternFlags.skip_append`): a closing parenthesis behind a text stays,
  unless a comment is open there; then it is left out up to the end of the line.
- **Left to right** (`LeftToRight`): a reader leaves an end of the text, and it says the same
  whether or not a closing parenthesis and more stand behind the text (`Alike`), unless it goes
  beyond that parenthesis. Only a line that ends behind the parenthesis can make it do so where it
  had read something.
- **What follows from that**: with the parenthesis it reads what it does without
  (`LeftToRight.append_eq_some`), and the other way round (`LeftToRight.eq_some_of_append`).
- **Readers from readers**: one behind the other (`bind`), a case on the next character
  (`of_cons`, `of_mark`), behind blanks (`skip`).
-/

namespace Formwork.Text

variable {α β : Type} {f : PatternFlags} {t u v : List Char}

/-! ## Blanks and comments -/

theorem dropComments_suffix (inComment : Bool) (u : List Char) :
    dropComments inComment u <:+ u := by
  induction u generalizing inComment with
  | nil => exact List.suffix_rfl
  | cons c u ih =>
    unfold dropComments
    split_ifs
    · exact (ih _).trans (List.suffix_cons c u)
    · exact (ih _).trans (List.suffix_cons c u)
    · exact (ih _).trans (List.suffix_cons c u)
    · exact List.suffix_rfl

/-- A comment that is not ended leaves nothing. -/
theorem dropComments_true_eq_nil (h : '\n' ∉ u) : dropComments true u = [] := by
  induction u with
  | nil => rfl
  | cons c u ih =>
    obtain ⟨hc, hu⟩ := not_or.mp (mt List.mem_cons.mpr h)
    have hgoes : (c != '\n') = true := by simpa using fun hn => hc hn.symm
    rw [dropComments, if_pos rfl, hgoes, ih hu]

/-- Behind a text a closing parenthesis stays, unless a comment is open there. -/
theorem dropComments_append (inComment : Bool) (u : List Char) :
    (∀ t, dropComments inComment (u ++ ')' :: t) = dropComments inComment u ++ ')' :: t) ∨
      (dropComments inComment u = [] ∧
        ∀ t, dropComments inComment (u ++ ')' :: t) = dropComments true t) := by
  induction u generalizing inComment with
  | nil =>
    cases inComment with
    | false => exact .inl fun t => rfl
    | true => exact .inr ⟨rfl, fun t => rfl⟩
  | cons c u ih =>
    simp only [List.cons_append, dropComments]
    split_ifs
    · exact ih _
    · exact ih _
    · exact ih _
    · exact .inl fun t => rfl

/-- What was left out ends in front of the next character, whatever follows that. -/
theorem exists_dropComments_eq_cons {inComment : Bool} {c : Char}
    (h : dropComments inComment u = c :: v) :
    ∃ z, u = z ++ c :: v ∧ dropComments inComment z = [] ∧
      ∀ w, dropComments inComment (z ++ c :: w) = c :: w := by
  induction u generalizing inComment with
  | nil => cases h
  | cons d u ih =>
    rw [dropComments] at h
    have hstep : ∀ b, dropComments b u = c :: v →
        (∀ w, dropComments inComment (d :: w) = dropComments b w) →
        ∃ z, d :: u = z ++ c :: v ∧ dropComments inComment z = [] ∧
          ∀ w, dropComments inComment (z ++ c :: w) = c :: w := by
      intro b hb hd
      obtain ⟨z, rfl, hz, hnext⟩ := ih hb
      exact ⟨d :: z, rfl, (hd z).trans hz, fun w => (hd _).trans (hnext w)⟩
    split_ifs at h with hcomment hspace hmark
    · exact hstep _ h fun w => by rw [dropComments, if_pos hcomment]
    · exact hstep _ h fun w => by rw [dropComments, if_neg hcomment, if_pos hspace]
    · exact hstep _ h fun w => by rw [dropComments, if_neg hcomment, if_neg hspace, if_pos hmark]
    · obtain ⟨rfl, rfl⟩ := List.cons.inj h
      refine ⟨[], rfl, rfl, fun w => ?_⟩
      rw [List.nil_append, dropComments, if_neg hcomment, if_neg hspace, if_neg hmark]

@[simp]
theorem PatternFlags.skip_nil (f : PatternFlags) : f.skip [] = [] := by
  unfold skip
  split <;> rfl

theorem PatternFlags.skip_suffix (f : PatternFlags) (u : List Char) : f.skip u <:+ u := by
  unfold skip
  split
  · exact dropComments_suffix false u
  · exact List.suffix_rfl

theorem PatternFlags.skip_append (f : PatternFlags) (u : List Char) :
    (∀ t, f.skip (u ++ ')' :: t) = f.skip u ++ ')' :: t) ∨
      (f.skip u = [] ∧ ∀ t, f.skip (u ++ ')' :: t) = dropComments true t) := by
  unfold skip
  split
  · exact dropComments_append false u
  · exact .inl fun t => rfl

theorem PatternFlags.exists_skip_eq_cons {c : Char} (h : f.skip u = c :: v) :
    ∃ z, u = z ++ c :: v ∧ f.skip z = [] ∧ ∀ w, f.skip (z ++ c :: w) = c :: w := by
  unfold skip at h ⊢
  split_ifs at h ⊢
  · exact exists_dropComments_eq_cons h
  · exact ⟨[], h, rfl, fun w => rfl⟩

/-! ## Readers -/

/-- What a reader says about a text (`near`) and about the same text with a closing parenthesis and
`t` behind it (`far`): the same, or with the longer text it reads beyond the parenthesis. -/
inductive Alike (t : List Char) : (near far : Option (α × List Char)) → Prop where
  | same (x : α) (v : List Char) : Alike t (some (x, v)) (some (x, v ++ ')' :: t))
  | beyond {near far : Option (α × List Char)} (hnear : near = none ∨ '\n' ∈ t)
    (hfar : ∀ a ∈ far, a.2 <:+ t) : Alike t near far

/-- Readings that are alike stay so if the readers behind them go on alike, and the one behind the
longer text reads no further back. -/
theorem Alike.bind {near far : Option (α × List Char)}
    {g h : α × List Char → Option (β × List Char)} (halike : Alike t near far)
    (hsame : ∀ x v, near = some (x, v) → Alike t (g (x, v)) (h (x, v ++ ')' :: t)))
    (hbeyond : ∀ a : α × List Char, a.2 <:+ t → ∀ b, h a = some b → b.2 <:+ t) :
    Alike t (near.bind g) (far.bind h) := by
  cases halike with
  | same x v => exact hsame x v rfl
  | beyond hnear hfar =>
    refine .beyond (hnear.imp_left (by rintro rfl; rfl)) fun b hb => ?_
    obtain ⟨a, ha, hb⟩ := Option.bind_eq_some_iff.mp hb
    exact hbeyond a (hfar a ha) b hb

/-- A reader that leaves an end of the text, and which no closing parenthesis behind the text can
change unless it goes beyond that. -/
structure LeftToRight (R : List Char → Option (α × List Char)) : Prop where
  suffix : ∀ {u a}, R u = some a → a.2 <:+ u
  alike : ∀ u t, Alike t (R u) (R (u ++ ')' :: t))

namespace LeftToRight

variable {R S : List Char → Option (α × List Char)}

/-- What a reader says without the parenthesis, where it does not read beyond it. -/
theorem eq_some_of_append {x : α} (h : LeftToRight R)
    (hread : R (u ++ ')' :: t) = some (x, v ++ ')' :: t)) : R u = some (x, v) := by
  have halike := h.alike u t
  generalize R u = near at halike ⊢
  generalize R (u ++ ')' :: t) = far at halike hread
  cases halike with
  | same y w =>
    obtain ⟨rfl, rfl⟩ : y = x ∧ w = v := by simpa using hread
    rfl
  | beyond hnear hfar =>
    have hle := (hfar _ hread).length_le
    simp only [List.length_append, List.length_cons] at hle
    omega

/-- What a reader says with the parenthesis, if no line ends behind it. -/
theorem append_eq_some {x : α} (h : LeftToRight R) (ht : '\n' ∉ t) (hread : R u = some (x, v)) :
    R (u ++ ')' :: t) = some (x, v ++ ')' :: t) := by
  have halike := h.alike u t
  rw [hread] at halike
  generalize R (u ++ ')' :: t) = far at halike ⊢
  cases halike with
  | same => rfl
  | beyond hnear hfar => exact absurd (hnear.resolve_left (by simp)) ht

/-- With nothing to read without the parenthesis, a reader goes beyond it or reads nothing. -/
theorem suffix_of_eq_none {a : α × List Char} (h : LeftToRight R) (hnone : R u = none)
    (hread : R (u ++ ')' :: t) = some a) : a.2 <:+ t := by
  have halike := h.alike u t
  rw [hread, hnone] at halike
  cases halike with
  | beyond hnear hfar => exact hfar a rfl

/-- A reader that takes nothing. -/
theorem of_option (o : Option β) (g : β → α) :
    LeftToRight fun u => o.map fun x => (g x, u) where
  suffix h := by
    obtain ⟨x, -, rfl⟩ := Option.map_eq_some_iff.mp h
    exact List.suffix_rfl
  alike u t := by
    cases o with
    | none => exact .beyond (.inl rfl) (by simp)
    | some x => exact .same _ u

theorem const (o : Option α) : LeftToRight fun u => o.map fun x => (x, u) := of_option o id

theorem const_some (x : α) : LeftToRight fun u => some (x, u) := const (some x)

theorem const_none : LeftToRight fun _ => (none : Option (α × List Char)) := const none

/-- One reader behind another one. -/
theorem bind {T : α → List Char → Option (β × List Char)} (h : LeftToRight R)
    (hT : ∀ x, LeftToRight (T x)) : LeftToRight fun u => (R u).bind fun a => T a.1 a.2 where
  suffix hread := by
    obtain ⟨a, ha, hb⟩ := Option.bind_eq_some_iff.mp hread
    exact ((hT _).suffix hb).trans (h.suffix ha)
  alike u t := (h.alike u t).bind (fun x v _ => (hT x).alike v t) fun _ ha _ hb =>
    ((hT _).suffix hb).trans ha

theorem map (h : LeftToRight R) (g : α → β) :
    LeftToRight fun u => (R u).map fun a => (g a.1, a.2) := by
  simpa only [Option.map_eq_bind, Function.comp_def] using h.bind fun x => const_some (g x)

/-- A reader that takes one character and goes on as that says. -/
theorem of_cons (hnil : R [] = none) (hcons : ∀ c, LeftToRight fun u => R (c :: u)) :
    LeftToRight R where
  suffix {u} _ hread := by
    cases u with
    | nil => rw [hnil] at hread; cases hread
    | cons c u => exact ((hcons c).suffix hread).trans (List.suffix_cons c u)
  alike u t := by
    cases u with
    | nil => exact .beyond (.inl hnil) fun a ha => (hcons ')').suffix ha
    | cons c u => exact (hcons c).alike u t

/-- A reader behind blanks and comments, if it finds nothing at the end. -/
theorem skip (h : LeftToRight R) (hnil : R [] = none) (f : PatternFlags) :
    LeftToRight fun u => R (f.skip u) where
  suffix hread := (h.suffix hread).trans (f.skip_suffix _)
  alike u t := by
    rcases f.skip_append u with hskip | ⟨hskip, hopen⟩
    · rw [hskip]
      exact h.alike _ t
    · rw [hskip, hopen]
      exact .beyond (.inl hnil) fun a ha => (h.suffix ha).trans (dropComments_suffix true t)

theorem ite {p : Prop} [Decidable p] (hR : LeftToRight R) (hS : LeftToRight S) :
    LeftToRight fun u => if p then R u else S u := by
  by_cases h : p
  · simpa only [if_pos h] using hR
  · simpa only [if_neg h] using hS

/-- A reader that goes on as `S` behind a mark, and as `T` in front of anything else. -/
theorem of_mark {T : List Char → Option (α × List Char)} (mark : Char) (hmark : mark ≠ ')')
    (hS : LeftToRight S) (hT : LeftToRight T) (hthere : ∀ u, R (mark :: u) = S u)
    (hnil : R [] = T []) (helse : ∀ c u, c ≠ mark → R (c :: u) = T (c :: u)) :
    LeftToRight R where
  suffix {u a} hread := by
    rcases u with - | ⟨c, u⟩
    · exact hT.suffix (hnil ▸ hread)
    · by_cases hc : c = mark
      · rw [hc, hthere] at hread
        exact (hS.suffix hread).trans (List.suffix_cons c u)
      · exact hT.suffix (helse c u hc ▸ hread)
  alike u t := by
    rcases u with - | ⟨c, u⟩
    · rw [hnil, List.nil_append, helse ')' t hmark.symm]
      exact hT.alike [] t
    · by_cases hc : c = mark
      · rw [hc, List.cons_append, hthere, hthere]
        exact hS.alike u t
      · rw [List.cons_append, helse c u hc, helse c _ hc]
        exact hT.alike (c :: u) t

/-- A reader that goes on as `S` behind blanks and a mark, and else takes nothing. -/
theorem of_skip_mark {x : α} (mark : Char) (hmark : mark ≠ ')') (hS : LeftToRight S)
    (hthere : ∀ u v, f.skip u = mark :: v → R u = S v)
    (helse : ∀ u, (f.skip u).head? ≠ some mark → R u = some (x, u)) : LeftToRight R where
  suffix {u a} hread := by
    by_cases h : (f.skip u).head? = some mark
    · obtain ⟨v, hv⟩ := List.head?_eq_some_iff.mp h
      rw [hthere u v hv] at hread
      exact (hS.suffix hread).trans ((List.suffix_cons mark v).trans (hv ▸ f.skip_suffix u))
    · rw [helse u h] at hread
      obtain rfl := Option.some.inj hread
      exact List.suffix_rfl
  alike u t := by
    rcases f.skip_append u with hskip | ⟨hskip, hopen⟩
    · rcases hnear : f.skip u with - | ⟨c, v⟩
      · rw [hnear] at hskip
        rw [helse u (by simp [hnear]), helse _ (by simpa [hskip] using hmark.symm)]
        exact .same x u
      · rw [hnear] at hskip
        by_cases hc : c = mark
        · subst hc
          rw [hthere u v hnear, hthere _ _ (hskip t)]
          exact hS.alike v t
        · rw [helse u (by simpa [hnear] using hc), helse _ (by simpa [hskip] using hc)]
          exact .same x u
    · rw [helse u (by simp [hskip])]
      by_cases h : (f.skip (u ++ ')' :: t)).head? = some mark
      · obtain ⟨v, hv⟩ := List.head?_eq_some_iff.mp h
        have hline : '\n' ∈ t := by
          refine Decidable.not_not.mp fun hline => ?_
          rw [hopen, dropComments_true_eq_nil hline] at hv
          cases hv
        rw [hthere _ v hv]
        refine .beyond (.inr hline) fun a ha => (hS.suffix ha).trans ?_
        exact (List.suffix_cons mark v).trans (hv ▸ hopen t ▸ dropComments_suffix true t)
      · rw [helse _ h]
        exact .same x u

end LeftToRight

end Formwork.Text
