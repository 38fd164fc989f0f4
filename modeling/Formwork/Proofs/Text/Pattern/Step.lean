import Formwork.Proofs.Text.Pattern.Class

/-!
# Reading items

Every item of a pattern is read from left to right (`leftToRight_step`): groups and settings
(`leftToRight_readOpening`), bounds of repetitions (`leftToRight_readCount`), and the marks of lazy
ones.
-/

namespace Formwork.Text

variable {α : Type}

open LeftToRight

/-! ## Groups -/

theorem leftToRight_readFlags (f : PatternFlags) (on : Bool) (seen : List Char) :
    LeftToRight (readFlags f on seen) where
  suffix {u a} hread := by
    induction u generalizing f on seen with
    | nil => cases hread
    | cons c u ih =>
      unfold readFlags at hread
      split_ifs at hread
      · obtain rfl := Option.some.inj hread
        exact List.suffix_cons c u
      · exact (ih _ _ _ hread).trans (List.suffix_cons c u)
      · split at hread
        · exact (ih _ _ _ hread).trans (List.suffix_cons c u)
        · cases hread
  alike u t := by
    induction u generalizing f on seen with
    | nil =>
      refine .beyond (.inl rfl) fun a ha => ?_
      rw [List.nil_append, readFlags, if_pos (.inr rfl)] at ha
      split at ha
      · cases ha
      · obtain rfl := Option.some.inj ha
        exact List.suffix_rfl
    | cons c u ih =>
      rw [List.cons_append, readFlags, readFlags]
      split_ifs
      · exact const_none.alike u t
      · exact (const_some _).alike u t
      · exact const_none.alike u t
      · exact ih _ _ _
      · split
        · exact ih _ _ _
        · exact const_none.alike u t

theorem leftToRight_openNamed? (r : PatternReader) : LeftToRight r.openNamed? :=
  (leftToRight_readUntil (by decide)).bind fun name => const (r.named? name)

theorem leftToRight_openMarked? (r : PatternReader) : LeftToRight r.openMarked? :=
  of_mark '<' (by decide) (leftToRight_openNamed? r) const_none (fun _ => rfl) rfl fun c u hc => by
    simp [PatternReader.openMarked?, hc]

theorem leftToRight_readMarkedKind (r : PatternReader) : LeftToRight r.readMarkedKind := by
  have hsettings := (leftToRight_readFlags r.flags true []).map fun a => r.set a.1 a.2
  exact of_mark 'P' (by decide) (leftToRight_openMarked? r) hsettings (fun _ => rfl) rfl
    fun c u hc => by simp [PatternReader.readMarkedKind, hc]

theorem leftToRight_readGroupKind (r : PatternReader) : LeftToRight r.readGroupKind :=
  of_mark '<' (by decide) (leftToRight_openNamed? r) (leftToRight_readMarkedKind r) (fun _ => rfl)
    rfl fun c u hc => by simp [PatternReader.readGroupKind, hc]

theorem leftToRight_readOpening (r : PatternReader) : LeftToRight r.readOpening := by
  refine of_skip_mark '?' (by decide) (leftToRight_readGroupKind r) (f := r.flags)
    (x := r.openGroup r.flags) (fun u v h => ?_) fun u h => ?_
  · simp only [PatternReader.readOpening, h]
  · unfold PatternReader.readOpening
    split
    · next hskip => simp [hskip] at h
    · rfl

/-! ## Repetitions -/

theorem trimLeft_append_close (u t : List Char) :
    trimLeft (u ++ ')' :: t) = trimLeft u ++ ')' :: t :=
  (dropWhile_append_stop rfl u t).1

theorem leftToRight_readCountNumber : LeftToRight readCountNumber where
  suffix {u a} hread := by
    obtain ⟨n, -, rfl⟩ := Option.map_eq_some_iff.mp hread
    exact (List.dropWhile_suffix _).trans
      ((List.dropWhile_suffix _).trans (List.dropWhile_suffix _))
  alike u t := by
    obtain ⟨hdrop, htake⟩ := dropWhile_append_stop (p := Char.isDigit) rfl (trimLeft u) t
    simp only [readCountNumber, trimLeft_append_close, hdrop, htake]
    exact (const _).alike _ t

theorem leftToRight_readBrace : LeftToRight readBrace :=
  of_mark '\x7d' (by decide) (const_some ()) const_none (fun _ => rfl) rfl fun c u hc => by
    simp [readBrace, hc]

theorem leftToRight_readMost (least : Nat) : LeftToRight (readMost least) := by
  have hnumber := leftToRight_readCountNumber.bind fun most => leftToRight_readBrace.bind fun _ =>
    const (Bounds.ofRange? least most)
  exact of_mark '\x7d' (by decide) (const_some _) hnumber (fun _ => rfl) rfl fun c u hc => by
    simp [readMost, hc]

theorem leftToRight_readComma (f : PatternFlags) (least : Nat) :
    LeftToRight (readComma f least) :=
  of_mark ',' (by decide) ((leftToRight_readMost least).skip rfl f) const_none (fun _ => rfl) rfl
    fun c u hc => by simp [readComma, hc]

theorem leftToRight_readBoundsEnd (f : PatternFlags) (least : Nat) :
    LeftToRight (readBoundsEnd f least) :=
  of_mark '\x7d' (by decide) (const_some _) (leftToRight_readComma f least) (fun _ => rfl) rfl
    fun c u hc => by simp [readBoundsEnd, hc]

theorem leftToRight_readCount (f : PatternFlags) : LeftToRight (readCount f) :=
  (leftToRight_readCountNumber.skip rfl f).bind fun least => leftToRight_readBoundsEnd f least

theorem leftToRight_dropLazyMark (x : α) : LeftToRight fun u => some (x, dropLazyMark u) :=
  of_mark '?' (by decide) (const_some x) (const_some x) (fun _ => rfl) rfl fun c u hc => by
    simp [dropLazyMark, hc]

theorem PatternFlags.leftToRight_dropLazyMark (f : PatternFlags) (x : α) :
    LeftToRight fun u => some (x, f.dropLazyMark u) := by
  refine of_skip_mark '?' (by decide) (const_some x) (f := f) (x := x) (fun u v h => ?_)
    fun u h => ?_
  · simp only [PatternFlags.dropLazyMark, h]
  · unfold PatternFlags.dropLazyMark
    split
    · next hskip => simp [hskip] at h
    · rfl

theorem leftToRight_readRepetition (r : PatternReader) : LeftToRight r.readRepetition := by
  have hlazy : ∀ b : Bounds, LeftToRight fun u =>
      (r.repeated? b).map (·, r.flags.dropLazyMark u) := by
    intro b
    rcases r.repeated? b with - | r'
    · exact const_none
    · exact r.flags.leftToRight_dropLazyMark r'
  exact (leftToRight_readCount r.flags).bind hlazy

/-! ## Items -/

theorem leftToRight_step (r : PatternReader) (c : Char) : LeftToRight (r.step c) := by
  have hlazy : ∀ o : Option PatternReader, LeftToRight fun u => o.map (·, dropLazyMark u) := by
    rintro (- | r')
    · exact const_none
    · exact leftToRight_dropLazyMark r'
  unfold PatternReader.step
  split
  · exact leftToRight_readOpening r
  · exact const _
  · exact const_some _
  · exact hlazy _
  · exact hlazy _
  · exact hlazy _
  · exact leftToRight_readRepetition r
  · exact (leftToRight_readClass r.flags).map r.pushSet
  · exact of_option r.flags.dot? r.pushSet
  · exact const_some _
  · exact const_some _
  · exact (leftToRight_readEscape r.flags).map r.pushEscape
  · exact const_some _

end Formwork.Text
