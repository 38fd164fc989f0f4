import Formwork.Text.Pattern.Parser

/-!
# Engines of patterns

Rules are checked by an engine, which reads the text of a pattern and says whether the pattern
matches somewhere in a value. What the engine takes for a pattern is its own matter.
-/

namespace Formwork.Text

/-- An engine for patterns, which it reads into `P`. -/
structure PatternEngine (P : Type) where
  /-- Reads a pattern, or says why it cannot be used. -/
  compile : String → Except String P
  /-- Whether the pattern matches some part of a text. -/
  isMatch : P → String → Bool

/-- The engine without limits of size and nesting, for the notation of `Pattern.parse?`. -/
def Pattern.engine : PatternEngine Pattern where
  compile text :=
    match Pattern.parse? text with
    | some a => .ok a
    | none => .error "not a pattern"
  isMatch a text := a.matchesWithin text.toList

end Formwork.Text
