import Formwork.Proofs.Text.Pattern.Enclosed
import Formwork.Text.Pattern.Engine

/-!
# Patterns of an engine

What is relied on of an engine for patterns is what its documentation says about the two ends of a
text, groups, sequences, comments and searching (`PatternEngine.Grammar`). A pattern in a group
between the tests of both ends is found in a text iff the pattern by itself matches the whole of it
(`isMatch_enclosed_iff`). The engine of `Text.Pattern` has such a grammar (`Pattern.grammar`).
-/

namespace Formwork.Text

variable {P : Type} {E : PatternEngine P}

/-- The documented notation of an engine, and what its patterns mean. -/
structure PatternEngine.Grammar (E : PatternEngine P) where
  /-- The pattern that a text is in the notation, within the limits of the engine or not. -/
  parse? : String → Option P
  /-- The pattern is within the limits of size and nesting. -/
  Fits : P → Prop
  /-- The test of the start of a text, written `^`. -/
  start : P
  /-- The test of the end of a text, written `$`. -/
  stop : P
  /-- A pattern in a group. -/
  group : P → P
  /-- One pattern after the other. -/
  sequence : P → P → P
  /-- The pattern matches a part of a text between what stands before it and what stands behind. -/
  Means : P → (before part after : List Char) → Prop
  /-- What is a pattern can be used if it is within the limits. -/
  compile_eq_ok_iff : ∀ {text e}, E.compile text = .ok e ↔ parse? text = some e ∧ Fits e
  /-- A search finds a pattern iff it matches some part of the text. -/
  isMatch_iff : ∀ {e} {text : String}, E.isMatch e text = true ↔
    ∃ u v w, text.toList = u ++ (v ++ w) ∧ Means e u v w
  means_start : ∀ {u v w}, Means start u v w ↔ v = [] ∧ u = []
  means_stop : ∀ {u v w}, Means stop u v w ↔ v = [] ∧ w = []
  means_group : ∀ {a u v w}, Means (group a) u v w ↔ Means a u v w
  means_sequence : ∀ {a b u v w}, Means (sequence a b) u v w ↔
    ∃ x y, v = x ++ y ∧ Means a u x (y ++ w) ∧ Means b (u ++ x) y w
  /-- A pattern that a parenthesis cannot follow is the same in a group of its own. -/
  parse?_enclosed : ∀ {p a}, parse? p = some a → parse? (p ++ ")") = none →
    parse? ("^(?:" ++ p ++ ")$") = some (sequence start (sequence (group a) stop))
  /-- A parenthesis that follows a pattern belongs to a comment, which ends with the line. -/
  parse?_comment : ∀ {p rest : String}, (parse? p).isSome → (parse? (p ++ ")")).isSome →
    '\n' ∉ rest.toList → parse? ("^(?:" ++ p ++ ")" ++ rest) = parse? ("^(?:" ++ p)
  /-- A pattern closes no group but its own, and a group must be closed. -/
  parse?_unclosed : ∀ {p}, (parse? p).isSome → parse? ("^(?:" ++ p) = none
  /-- A group is closed by the parenthesis behind a pattern that it cannot follow. -/
  exists_close : ∀ {text}, (parse? ("^(?:" ++ text)).isSome →
    ∃ part rest, text = part ++ ")" ++ rest ∧ (parse? part).isSome ∧ parse? (part ++ ")") = none

namespace PatternEngine.Grammar

variable (g : E.Grammar)

/-- A pattern in a group between the tests of both ends. -/
def enclosed (a : P) : P := g.sequence g.start (g.sequence (g.group a) g.stop)

/-- A pattern that ends in a comment: a parenthesis behind it belongs to that. -/
def EndsInComment (p : String) : Prop := (g.parse? p).isSome ∧ (g.parse? (p ++ ")")).isSome

/-- A text that closes a group which it has not opened: a part of it is a pattern, and with the next
parenthesis it is none any more. -/
def ClosesGroup (p : String) : Prop :=
  ∃ part rest, p = part ++ ")" ++ rest ∧ (g.parse? part).isSome ∧ g.parse? (part ++ ")") = none

variable {g} {p : String} {a : P}

theorem means_enclosed_iff {u v w : List Char} :
    g.Means (g.enclosed a) u v w ↔ u = [] ∧ w = [] ∧ g.Means a [] v [] := by
  unfold enclosed
  simp only [g.means_sequence, g.means_start, g.means_stop, g.means_group]
  constructor
  · rintro ⟨_, _, rfl, ⟨rfl, rfl⟩, x, _, rfl, hx, rfl, rfl⟩
    exact ⟨rfl, rfl, by simpa using hx⟩
  · rintro ⟨rfl, rfl, h⟩
    exact ⟨[], v, rfl, ⟨rfl, rfl⟩, v, [], by simp, by simpa using h, rfl, rfl⟩

/-- In a group between the tests of both ends, a pattern is found in the texts that it matches as a
whole. -/
theorem isMatch_enclosed_iff {text : String} :
    E.isMatch (g.enclosed a) text = true ↔ g.Means a [] text.toList [] := by
  rw [g.isMatch_iff]
  simp only [means_enclosed_iff]
  constructor
  · rintro ⟨_, v, _, htext, rfl, rfl, h⟩
    rw [List.nil_append, List.append_nil] at htext
    exact htext ▸ h
  · exact fun h => ⟨[], text.toList, [], by simp, rfl, rfl, h⟩

theorem parse?_of_not_endsInComment (ha : g.parse? p = some a) (h : ¬ g.EndsInComment p) :
    g.parse? ("^(?:" ++ p ++ ")$") = some (g.enclosed a) := by
  refine g.parse?_enclosed ha (Option.not_isSome_iff_eq_none.mp fun hclose => h ⟨?_, hclose⟩)
  rw [ha]
  rfl

/-- The end of the group belongs to the comment, so the group stays open. -/
theorem parse?_of_endsInComment (h : g.EndsInComment p) :
    g.parse? ("^(?:" ++ p ++ ")$") = none := by
  have hline : g.parse? ("^(?:" ++ p ++ ")" ++ "$") = g.parse? ("^(?:" ++ p) :=
    g.parse?_comment h.1 h.2 (by decide)
  have htext : "^(?:" ++ p ++ ")" ++ "$" = "^(?:" ++ p ++ ")$" := String.append_assoc
  rw [← htext, hline, g.parse?_unclosed h.1]

/-- A text that is no pattern is none between the tests, unless it closes the group itself. -/
theorem parse?_of_parse?_eq_none (hp : g.parse? p = none) (h : ¬ g.ClosesGroup p) :
    g.parse? ("^(?:" ++ p ++ ")$") = none := by
  rw [String.append_assoc, ← Option.not_isSome_iff_eq_none]
  intro hwhole
  obtain ⟨part, rest, htext, hpart, hclose⟩ := g.exists_close hwhole
  have hsame : part ≠ p := by
    rintro rfl
    rw [hp] at hpart
    cases hpart
  have htext : p.toList ++ [')', '$'] = part.toList ++ ')' :: rest.toList := by
    simpa using congrArg String.toList htext
  rcases List.append_eq_append_iff.mp htext with ⟨v, hv, hrest⟩ | ⟨v, hv, hrest⟩
  · rcases v with - | ⟨c, v⟩
    · exact hsame (String.toList_inj.mp (by simpa using hv))
    · -- no parenthesis is behind the one at the end of the group
      have hmem : ')' ∈ ['$'] := (List.cons.inj hrest).2 ▸ List.mem_append_right v (.head _)
      exact absurd hmem (by decide)
  · rcases v with - | ⟨c, v⟩
    · exact hsame (String.toList_inj.mp (by simpa using hv.symm))
    · obtain ⟨rfl, -⟩ := List.cons.inj hrest
      refine h ⟨part, String.ofList v, String.toList_inj.mp ?_, hpart, hclose⟩
      simpa using hv

end PatternEngine.Grammar

/-! ## The engine of `Text.Pattern` -/

namespace Pattern

theorem parse?_eq_run (text : String) : parse? text = PatternReader.run {} text.toList := rfl

/-- The start of the text is read as a group behind the test of the start. -/
theorem parse?_opened (text : String) :
    parse? ("^(?:" ++ text) =
      (PatternReader.inside {} PatternReader.startGroup).run text.toList := by
  have htext : ("^(?:" ++ text).toList = '^' :: '(' :: '?' :: ':' :: text.toList := by simp
  rw [parse?_eq_run, htext, PatternReader.run_of_skip_eq_cons rfl]
  show PatternReader.run _ ('(' :: _) = _
  rw [PatternReader.run_of_skip_eq_cons rfl]
  rfl

theorem parse?_close (text : String) :
    parse? (text ++ ")") = PatternReader.run {} (text.toList ++ [')']) := by
  rw [parse?_eq_run, String.toList_append]
  rfl

/-- The notation of `Pattern.parse?`, with the patterns of `Pattern.Matches`. A group is no pattern
of its own, and there are no limits. -/
def grammar : engine.Grammar where
  parse? := parse?
  Fits _ := True
  start := place .textStart
  stop := place .textEnd
  group := id
  sequence := sequence
  Means a before part after := a.Matches before.getLast? part after.head?
  compile_eq_ok_iff {text e} := by
    show (match parse? text with | some a => _ | none => _) = _ ↔ _
    cases parse? text <;> simp
  isMatch_iff := matchesWithin_iff
  means_start := by simp [Matches, PlaceTest.holds]
  means_stop := by simp [Matches, PlaceTest.holds]
  means_group := .rfl
  means_sequence {a b u v w} := by
    simp only [List.head?_append, List.getLast?_append]
    rfl
  parse?_enclosed {p a} ha hclose := by
    rw [parse?_close] at hclose
    rw [String.append_assoc, parse?_opened, String.toList_append]
    cases PatternReader.ending ha with
    | closed _ htied => exact htied
    | comment hcomment _ =>
      rw [hclose] at hcomment
      cases hcomment
  parse?_comment {p rest} hp hclose hrest := by
    obtain ⟨a, ha⟩ := Option.isSome_iff_exists.mp hp
    rw [parse?_close] at hclose
    rw [String.append_assoc, String.append_assoc, parse?_opened, parse?_opened,
      PatternReader.run_inside_of_run ha]
    cases PatternReader.ending ha with
    | closed hnone _ =>
      rw [hnone] at hclose
      cases hclose
    | comment _ hline => simpa using hline rest.toList hrest
  parse?_unclosed {p} hp := by
    obtain ⟨a, ha⟩ := Option.isSome_iff_exists.mp hp
    rw [parse?_opened]
    exact PatternReader.run_inside_of_run ha
  exists_close {text} htext := by
    obtain ⟨a, ha⟩ := Option.isSome_iff_exists.mp htext
    rw [parse?_opened] at ha
    obtain ⟨v, w, hv, hpart, hclose⟩ := PatternReader.exists_close_of_run_inside ha
    refine ⟨String.ofList v, String.ofList w, String.toList_inj.mp (by simpa using hv), ?_, ?_⟩
    · rw [parse?_eq_run, String.toList_ofList]
      exact hpart
    · rw [parse?_close, String.toList_ofList]
      exact hclose

end Pattern

end Formwork.Text
