import Formwork.Proofs.Text.Pattern.Grammar
import Formwork.Proofs.Validation.Fields

/-!
# Masks

The pattern of a rule stands for the whole of each value. The text of it is put into a group between
the tests of both ends, and what comes of that is read by an engine for patterns.

- **Rules** (`CompiledRule.compileWith_eq`): a rule whose lengths are in order is as good as its
  pattern.
- **Whole values** (`CompiledRule.compile_matchesAll`): a pattern is a mask for whole values, unless
  it ends in a comment; a text that is no pattern is refused, unless it closes the group around it.
-/

namespace Formwork

open Text

namespace CompiledRule

variable {P : Type} {E : PatternEngine P} {r : FieldRule} {p : String}

/-- What the pattern of a rule comes to, if the lengths of the rule are in order. -/
theorem compileWith_eq (hp : r.pattern = some p)
    (hlengths : ∀ least ∈ r.minLength, ∀ greatest ∈ r.maxLength, least ≤ greatest) :
    compileWith E r =
      ((E.compile (anchored p)).mapError (.invalidPattern r.field p)).map fun m => ⟨r, some m⟩ := by
  have hpattern : compileWith E r = compileWith.withPattern E r := by
    unfold compileWith
    split
    · next least greatest hmin hmax =>
      rw [if_neg (Nat.not_lt.mpr (hlengths least hmin greatest hmax))]
    · rfl
  rw [hpattern]
  unfold compileWith.withPattern
  rw [hp]
  dsimp only
  cases E.compile (anchored p) <;> rfl

variable {g : E.Grammar}

/-- A rule whose pattern is none between the tests of both ends, or is beyond the limits, is
refused. -/
theorem exists_fault (hp : r.pattern = some p)
    (hlengths : ∀ least ∈ r.minLength, ∀ greatest ∈ r.maxLength, least ≤ greatest)
    (h : ∀ e, g.parse? (anchored p) = some e → ¬ g.Fits e) :
    ∃ fault, compileWith E r = .error (.invalidPattern r.field p fault) := by
  rw [compileWith_eq hp hlengths]
  cases hcompile : E.compile (anchored p) with
  | ok e =>
    obtain ⟨hparse, hfits⟩ := g.compile_eq_ok_iff.mp hcompile
    exact absurd hfits (h e hparse)
  | error fault => exact ⟨fault, rfl⟩

/-- **Whole values.** The mask of a rule accepts the values that its pattern, read by itself,
matches from the first character to the last; the rule is refused iff the pattern is beyond the
limits of the engine between the tests of both ends. Two kinds of text are apart from that: the end
of the group belongs to a comment at the end of a pattern, so that the rule is refused, and a text
that is no pattern may close the group. -/
theorem compile_matchesAll (g : E.Grammar) (hp : r.pattern = some p)
    (hlengths : ∀ least ∈ r.minLength, ∀ greatest ∈ r.maxLength, least ≤ greatest) :
    (∀ a, g.parse? p = some a → ¬ g.EndsInComment p →
      (g.Fits (g.enclosed a) → ∃ m, compileWith E r = .ok ⟨r, some m⟩ ∧
        ∀ value : String, Check.maskWith E value m = none ↔ g.Means a [] value.toList []) ∧
      (¬ g.Fits (g.enclosed a) →
        ∃ fault, compileWith E r = .error (.invalidPattern r.field p fault))) ∧
    (g.EndsInComment p → ∃ fault, compileWith E r = .error (.invalidPattern r.field p fault)) ∧
    (g.parse? p = none → ¬ g.ClosesGroup p →
      ∃ fault, compileWith E r = .error (.invalidPattern r.field p fault)) := by
  refine ⟨fun a ha hcomment => ?_, fun hcomment => ?_, fun hnone hcloses => ?_⟩
  · have hparse : g.parse? (anchored p) = some (g.enclosed a) :=
      g.parse?_of_not_endsInComment ha hcomment
    refine ⟨fun hfits => ⟨g.enclosed a, ?_, fun value => ?_⟩, fun hbeyond => ?_⟩
    · rw [compileWith_eq hp hlengths, g.compile_eq_ok_iff.mpr ⟨hparse, hfits⟩]
      rfl
    · rw [Check.maskWith_eq_none_iff, g.isMatch_enclosed_iff]
    · refine exists_fault (g := g) hp hlengths fun e he => ?_
      rw [hparse] at he
      exact Option.some.inj he ▸ hbeyond
  · have hparse : g.parse? (anchored p) = none := g.parse?_of_endsInComment hcomment
    exact exists_fault (g := g) hp hlengths fun e he => by simp [hparse] at he
  · have hparse : g.parse? (anchored p) = none := g.parse?_of_parse?_eq_none hnone hcloses
    exact exists_fault (g := g) hp hlengths fun e he => by simp [hparse] at he

/-- Choices are inside the group of the whole text: the second one counts for all of it, and the
first one is not enough for a part of it. -/
theorem compile_matchesAll_answer :
    (∃ m, compile { field := "answer", pattern := some "yes|no" } =
        .ok ⟨{ field := "answer", pattern := some "yes|no" }, some m⟩ ∧
      Check.mask "no" m = none ∧ Check.mask "yesterday" m ≠ none) ∧
    (∃ fault, compile { field := "answer", pattern := some "(?x)yes # no" } =
      .error (.invalidPattern "answer" "(?x)yes # no" fault)) ∧
    ∃ fault, compile { field := "zip", pattern := some "([0-9" } =
      .error (.invalidPattern "zip" "([0-9" fault) := by
  refine ⟨?_, ?_, ?_⟩
  · have hmatches : (Pattern.parse? "yes|no").any fun a =>
        a.matchesWhole "no".toList && !a.matchesWhole "yesterday".toList := by decide +kernel
    rcases hparse : Pattern.parse? "yes|no" with - | a
    · rw [hparse] at hmatches
      cases hmatches
    rw [hparse, Option.any_some, Bool.and_eq_true, Bool.not_eq_true', ← Bool.not_eq_true,
      Pattern.matchesWhole_iff, Pattern.matchesWhole_iff] at hmatches
    have hcomment : ¬ Pattern.grammar.EndsInComment "yes|no" := by
      unfold PatternEngine.Grammar.EndsInComment Pattern.grammar
      decide +kernel
    obtain ⟨m, hm, hmask⟩ :=
      ((compile_matchesAll Pattern.grammar
        (r := { field := "answer", pattern := some "yes|no" }) rfl (by simp)).1
          a hparse hcomment).1 trivial
    exact ⟨m, hm, (hmask _).mpr hmatches.1, mt (hmask _).mp hmatches.2⟩
  · refine (compile_matchesAll Pattern.grammar rfl (by simp)).2.1 ?_
    unfold PatternEngine.Grammar.EndsInComment Pattern.grammar
    decide +kernel
  · refine (compile_matchesAll Pattern.grammar rfl (by simp)).2.2 ?_ ?_
    · show Pattern.parse? "([0-9" = none
      decide +kernel
    · rintro ⟨part, rest, htext, -⟩
      have hmem : ')' ∈ "([0-9".toList := by
        rw [htext]
        simp
      exact absurd hmem (by decide)

/-- A text that closes the group and opens another one: it is no pattern, and the whole is one that
a part of a value is enough for. -/
example : Pattern.parse? "a)|(?:b" = none ∧
    (Pattern.parse? (anchored "a)|(?:b")).any (·.matchesWithin "a!".toList) := by
  decide +kernel

end CompiledRule

end Formwork
