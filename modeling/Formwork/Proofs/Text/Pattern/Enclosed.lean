import Formwork.Proofs.Text.Pattern.Language
import Formwork.Proofs.Text.Pattern.Step

/-!
# Patterns in a group

What becomes of a text that is put into a group between the tests of both ends of the value. The
text goes into the group as it stands, so it may have to do with what is around it.

- **Runs** (`PatternReader.run`): reading item by item up to the end; `run_induction` is induction
  on the items.
- **Groups around a reader** (`step_inside`): one more group around all of them makes no difference,
  unless a parenthesis closes it. A pattern leaves that group open (`run_inside_of_run`); if a text
  closes it, it does so behind a part that is a pattern (`exists_close_of_run_inside`).
- **A parenthesis behind a pattern** (`ending`): it closes the group around the pattern, which is
  tied to both ends then, or it belongs to a comment. One item of the text changes nothing about
  that (`Ending.of_step`).
-/

namespace Formwork.Text

variable {t u v w : List Char} {r r' : PatternReader} {base : OpenGroup} {c : Char} {a : Pattern}

/-- The pattern with the tests of the start and the end of the text around it. -/
def Pattern.tied (a : Pattern) : Pattern :=
  sequence (place .textStart) (sequence a (place .textEnd))

namespace PatternReader

/-! ## Runs -/

/-- Reads items up to the end of the text. -/
def run (r : PatternReader) (u : List Char) : Option Pattern := r.read (u.length + 1) u

theorem length_lt_of_step (hskip : r.flags.skip u = c :: v) (hstep : r.step c v = some (r', w)) :
    w.length < u.length := by
  have hlen := (r.flags.skip_suffix u).length_le
  have hw : w.length ≤ v.length := ((leftToRight_step r c).suffix hstep).length_le
  rw [hskip, List.length_cons] at hlen
  omega

/-- Induction on the items of a text. -/
theorem run_induction {motive : PatternReader → List Char → Prop}
    (h : ∀ r u, (∀ c v r' w, r.flags.skip u = c :: v → r.step c v = some (r', w) → motive r' w) →
      motive r u) (r : PatternReader) (u : List Char) : motive r u :=
  h r u fun _ _ r' w _ _ => run_induction h r' w
termination_by u.length
decreasing_by exact length_lt_of_step ‹_› ‹_›

theorem read_eq_read {m n : Nat} (hm : u.length < m) (hn : u.length < n) :
    r.read m u = r.read n u := by
  induction m generalizing r u n with
  | zero => cases hm
  | succ m ih =>
    obtain ⟨n, rfl⟩ : ∃ l, n = l + 1 := ⟨n - 1, by omega⟩
    rw [read, read]
    rcases hskip : r.flags.skip u with - | ⟨c, v⟩
    · rfl
    · rcases hstep : r.step c v with - | ⟨r', w⟩
      · simp only [hstep]
      · have hlen := length_lt_of_step hskip hstep
        simp only [hstep]
        exact ih (by omega) (by omega)

theorem run_of_skip_eq_nil (h : r.flags.skip u = []) :
    r.run u = if r.groups.isEmpty then some r.group else none := by
  rw [run, read, h]

theorem run_of_skip_eq_cons (h : r.flags.skip u = c :: v) :
    r.run u = (r.step c v).bind fun a => a.1.run a.2 := by
  rw [run, read, h]
  rcases hstep : r.step c v with - | ⟨r', w⟩
  · simp only [hstep, Option.bind_none]
  · simp only [hstep, Option.bind_some]
    exact read_eq_read (length_lt_of_step h hstep) (Nat.lt_succ_self _)

/-! ## Groups around a reader -/

/-- The reader inside one more group, which is around all of its groups. -/
def inside (r : PatternReader) (base : OpenGroup) : PatternReader :=
  { r with groups := r.groups ++ [base] }

@[simp]
theorem inside_flags : (r.inside base).flags = r.flags := rfl

@[simp]
theorem inside_items : (r.inside base).items = r.items := rfl

@[simp]
theorem inside_repeatable : (r.inside base).repeatable = r.repeatable := rfl

theorem named?_inside (name : List Char) :
    (r.inside base).named? name = (r.named? name).map (·.inside base) := by
  by_cases h : isGroupName name && !r.names.contains name
  · have hinside : isGroupName name && !(r.inside base).names.contains name := h
    rw [named?, if_pos hinside, named?, if_pos h]
    rfl
  · have hinside : ¬ (isGroupName name && !(r.inside base).names.contains name) := h
    rw [named?, if_neg hinside, named?, if_neg h]
    rfl

theorem openNamed?_inside (u : List Char) :
    (r.inside base).openNamed? u = (r.openNamed? u).map fun a => (a.1.inside base, a.2) := by
  unfold openNamed?
  rcases readUntil '>' u with - | ⟨name, v⟩
  · rfl
  · simp only [Option.bind_some, named?_inside, Option.map_map]
    rfl

theorem readMarkedKind_inside (u : List Char) :
    (r.inside base).readMarkedKind u =
      (r.readMarkedKind u).map fun a => (a.1.inside base, a.2) := by
  unfold readMarkedKind
  split
  · unfold openMarked?
    split
    · exact openNamed?_inside _
    · rfl
  · show (readFlags r.flags true [] _).map _ = ((readFlags r.flags true [] _).map _).map _
    rcases readFlags r.flags true [] _ with - | ⟨⟨f, mark⟩, v⟩
    · rfl
    · simp only [Option.map_some, set]
      split <;> rfl

theorem readGroupKind_inside (u : List Char) :
    (r.inside base).readGroupKind u =
      (r.readGroupKind u).map fun a => (a.1.inside base, a.2) := by
  unfold readGroupKind
  split
  · exact openNamed?_inside _
  · exact readMarkedKind_inside _

theorem readOpening_inside (u : List Char) :
    (r.inside base).readOpening u = (r.readOpening u).map fun a => (a.1.inside base, a.2) := by
  simp only [readOpening, inside_flags]
  split
  · exact readGroupKind_inside _
  · rfl

theorem repeated?_inside (b : Bounds) :
    (r.inside base).repeated? b = (r.repeated? b).map (·.inside base) := by
  simp only [repeated?, inside_repeatable, inside_items]
  split <;> rfl

theorem closeGroup?_inside (h : r.groups ≠ []) :
    (r.inside base).closeGroup? = r.closeGroup?.map (·.inside base) := by
  obtain ⟨g, groups, hgroups⟩ := List.exists_cons_of_ne_nil h
  unfold closeGroup? inside
  rw [hgroups]
  rfl

/-- Only closing the outermost group of a reader depends on a group around it. -/
theorem step_inside (h : c ≠ ')' ∨ r.groups ≠ []) (u : List Char) :
    (r.inside base).step c u = (r.step c u).map fun a => (a.1.inside base, a.2) := by
  have hrepeated : ∀ (b : Bounds) (rest : List Char),
      ((r.inside base).repeated? b).map (·, rest) =
        ((r.repeated? b).map (·, rest)).map fun a => (a.1.inside base, a.2) := by
    intro b rest
    rw [repeated?_inside, Option.map_map, Option.map_map]
    rfl
  unfold step
  split
  · exact readOpening_inside u
  · have hgroups := h.resolve_left fun hc => hc rfl
    simp only [closeGroup?_inside hgroups, Option.map_map]
    rfl
  · rfl
  · exact hrepeated ..
  · exact hrepeated ..
  · exact hrepeated ..
  · show (readCount r.flags u).bind _ = ((readCount r.flags u).bind _).map _
    rcases readCount r.flags u with - | ⟨b, v⟩
    · rfl
    · exact hrepeated ..
  · rw [Option.map_map]
    rfl
  · rw [Option.map_map]
    rfl
  · rfl
  · rfl
  · show (readEscape r.flags u).map _ = ((readEscape r.flags u).map _).map _
    rcases readEscape r.flags u with - | ⟨- | - | -, v⟩ <;> rfl
  · rfl

theorem run_inside_of_skip_eq_nil (h : r.flags.skip u = []) : (r.inside base).run u = none := by
  have hgroups : (r.inside base).groups.isEmpty = false := by simp [inside]
  have hskip : (r.inside base).flags.skip u = [] := h
  rw [run_of_skip_eq_nil hskip, hgroups]
  rfl

theorem run_eq_none_of_close (h : r.flags.skip u = ')' :: v) (hgroups : r.groups = []) :
    r.run u = none := by
  rw [run_of_skip_eq_cons h]
  have hclose : r.closeGroup? = none := by rw [closeGroup?, hgroups]
  show (r.closeGroup?.map _).bind _ = none
  rw [hclose]
  rfl

/-- A pattern does not start by closing a group that it has not opened. -/
theorem ne_close_of_run (hskip : r.flags.skip u = c :: v) (h : r.run u = some a) :
    c ≠ ')' ∨ r.groups ≠ [] := by
  rw [← Decidable.not_and_iff_or_not]
  rintro ⟨rfl, hgroups⟩
  rw [run_eq_none_of_close hskip hgroups] at h
  cases h

/-- A text that is read up to its end by itself leaves a group around it open. -/
theorem run_inside_of_run (h : r.run u = some a) : (r.inside base).run u = none := by
  induction r, u using run_induction with
  | h r u ih =>
    rcases hskip : r.flags.skip u with - | ⟨c, v⟩
    · exact run_inside_of_skip_eq_nil hskip
    have hc := ne_close_of_run hskip h
    rw [run_of_skip_eq_cons hskip] at h
    obtain ⟨⟨r', w⟩, hstep, hrun⟩ := Option.bind_eq_some_iff.mp h
    have hfar : (r.inside base).flags.skip u = c :: v := hskip
    rw [run_of_skip_eq_cons hfar, step_inside hc, hstep]
    exact ih c v r' w hskip hstep hrun

/-- A group around a reader is closed by a parenthesis in the text: what stands in front of that is
read by itself, and with the parenthesis it is not. -/
theorem exists_close_of_run_inside (h : (r.inside base).run u = some a) :
    ∃ v w, u = v ++ ')' :: w ∧ (r.run v).isSome ∧ r.run (v ++ [')']) = none := by
  induction r, u using run_induction with
  | h r u ih =>
    rcases hskip : r.flags.skip u with - | ⟨c, v⟩
    · rw [run_inside_of_skip_eq_nil hskip] at h
      cases h
    obtain ⟨z, rfl, hz, hnext⟩ := r.flags.exists_skip_eq_cons hskip
    by_cases hc : c = ')' ∧ r.groups = []
    · obtain ⟨rfl, hgroups⟩ := hc
      refine ⟨z, v, rfl, ?_, run_eq_none_of_close (hnext []) hgroups⟩
      rw [run_of_skip_eq_nil hz, hgroups]
      rfl
    · have hread := leftToRight_step r c
      have hfar : (r.inside base).flags.skip (z ++ c :: v) = c :: v := hskip
      rw [run_of_skip_eq_cons hfar, step_inside (Decidable.not_and_iff_or_not.mp hc),
        Option.bind_map] at h
      obtain ⟨⟨r', w⟩, hstep, hrun⟩ := Option.bind_eq_some_iff.mp h
      obtain ⟨y, rest, rfl, hpart, hclose⟩ := ih c v r' w hskip hstep hrun
      obtain ⟨x, rfl⟩ := hread.suffix hstep
      -- the first item is the same in front of the part alone
      have hnear : r.step c (x ++ y) = some (r', y) :=
        hread.eq_some_of_append (t := rest) (by simpa using hstep)
      have hbehind : r.step c (x ++ y ++ [')']) = some (r', y ++ [')']) :=
        hread.append_eq_some (by simp) hnear
      refine ⟨z ++ c :: (x ++ y), rest, by simp, ?_, ?_⟩
      · rw [run_of_skip_eq_cons (hnext (x ++ y)), hnear]
        exact hpart
      · have hskip : r.flags.skip (z ++ c :: (x ++ y) ++ [')']) = c :: (x ++ y ++ [')']) := by
          simpa using hnext (x ++ y ++ [')'])
        rw [run_of_skip_eq_cons hskip, hbehind]
        exact hclose

/-! ## Patterns in a group between the tests of both ends -/

/-- The group behind the test of the start. -/
def startGroup : OpenGroup := ⟨{}, [], [.place .textStart]⟩

/-- What a parenthesis means behind a text that is read as a pattern. -/
inductive Ending (r : PatternReader) (u : List Char) (a : Pattern) : Prop where
  /-- It closes a group: none of the text itself, but the one around it. -/
  | closed (hclose : r.run (u ++ [')']) = none)
      (htied : (r.inside startGroup).run (u ++ [')', '$']) = some a.tied)
  /-- It belongs to a comment, with the rest of its line. -/
  | comment (hclose : r.run (u ++ [')']) = some a)
      (hline : ∀ t, '\n' ∉ t → (r.inside startGroup).run (u ++ ')' :: t) = none)

theorem ending_of_skip_eq_nil (h : r.flags.skip u = []) (hgroups : r.groups = []) :
    Ending r u r.group := by
  rcases r.flags.skip_append u with hskip | ⟨-, hopen⟩
  · rw [h] at hskip
    refine .closed (run_eq_none_of_close (hskip []) hgroups) ?_
    have hfar : (r.inside startGroup).flags.skip (u ++ [')', '$']) = [')', '$'] := hskip ['$']
    rw [run_of_skip_eq_cons hfar]
    obtain ⟨flags, choices, items, repeatable, groups, names⟩ := r
    obtain rfl : groups = [] := hgroups
    rfl
  · refine .comment ?_ fun t ht => run_inside_of_skip_eq_nil ?_
    · rw [run_of_skip_eq_nil (hopen []), hgroups]
      rfl
    · exact (hopen t).trans (dropComments_true_eq_nil ht)

/-- The first item of a text makes no difference to what a parenthesis means behind it. -/
theorem Ending.of_step (hskip : r.flags.skip u = c :: v)
    (hstep : r.step c v = some (r', w)) (hc : c ≠ ')' ∨ r.groups ≠ []) (h : Ending r' w a) :
    Ending r u a := by
  have hread := leftToRight_step r c
  obtain ⟨z, rfl, -, hnext⟩ := r.flags.exists_skip_eq_cons hskip
  have hbehind : ∀ t, '\n' ∉ t → r.flags.skip (z ++ c :: v ++ ')' :: t) = c :: (v ++ ')' :: t) ∧
      r.step c (v ++ ')' :: t) = some (r', w ++ ')' :: t) := fun t ht =>
    ⟨by simpa using hnext (v ++ ')' :: t), hread.append_eq_some ht hstep⟩
  have hnear : r.run (z ++ c :: v ++ [')']) = r'.run (w ++ [')']) := by
    obtain ⟨hskip, hstep⟩ := hbehind [] (by simp)
    rw [run_of_skip_eq_cons hskip, hstep]
    rfl
  have hfar : ∀ t, '\n' ∉ t → (r.inside startGroup).run (z ++ c :: v ++ ')' :: t) =
      (r'.inside startGroup).run (w ++ ')' :: t) := by
    intro t ht
    obtain ⟨hskip, hstep⟩ := hbehind t ht
    have hskip : (r.inside startGroup).flags.skip (z ++ c :: v ++ ')' :: t) =
        c :: (v ++ ')' :: t) := hskip
    rw [run_of_skip_eq_cons hskip, step_inside hc, hstep]
    rfl
  cases h with
  | closed hclose htied =>
    exact .closed (hnear.trans hclose) ((hfar ['$'] (by decide)).trans htied)
  | comment hclose hline =>
    exact .comment (hnear.trans hclose) fun t ht => (hfar t ht).trans (hline t ht)

/-- **Text in a group.** A parenthesis behind a pattern closes the group around it, or belongs to a
comment. -/
theorem ending (h : r.run u = some a) : Ending r u a := by
  induction r, u using run_induction with
  | h r u ih =>
    rcases hskip : r.flags.skip u with - | ⟨c, v⟩
    · rw [run_of_skip_eq_nil hskip] at h
      split at h
      · next hgroups =>
        obtain rfl := Option.some.inj h
        exact ending_of_skip_eq_nil hskip (List.isEmpty_iff.mp hgroups)
      · cases h
    have hc := ne_close_of_run hskip h
    rw [run_of_skip_eq_cons hskip] at h
    obtain ⟨⟨r', w⟩, hstep, hrun⟩ := Option.bind_eq_some_iff.mp h
    exact (ih c v r' w hskip hstep hrun).of_step hskip hstep hc

end PatternReader

end Formwork.Text
