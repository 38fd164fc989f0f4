import Formwork.Text.Unicode.Property

/-!
# Sets of characters

The sets that a pattern can name: ranges, classes of words, digits and blanks, character
properties, and what can be built from them. Disregarding case, a set holds a character iff it
holds one with the same case folding.
-/

namespace Formwork.Text

/-- A set of characters. -/
inductive CharSet where
  | nothing
  | range (low high : Char)
  | word
  | digit
  | blank
  | property (p : Unicode.CharProperty)
  | union (a b : CharSet)
  | both (a b : CharSet)
  | without (a b : CharSet)
  | either (a b : CharSet)
  | complement (a : CharSet)
  | anyCase (a : CharSet)
  deriving DecidableEq

namespace CharSet

/-- A single character. -/
def single (c : Char) : CharSet := range c c

/-- All characters. -/
def all : CharSet := complement nothing

/-- Whether a character is in the set. -/
def contains : CharSet → Char → Bool
  | nothing, _ => false
  | range low high, c => low ≤ c && c ≤ high
  | word, c => Unicode.isWord c
  | digit, c => Unicode.isDecimalDigit c
  | blank, c => isSpace c
  | property p, c => p.holds c
  | union a b, c => a.contains c || b.contains c
  | both a b, c => a.contains c && b.contains c
  | without a b, c => a.contains c && !b.contains c
  | either a b, c => a.contains c != b.contains c
  | complement a, c => !a.contains c
  | anyCase a, c => (Unicode.caseVariants c).any a.contains

/-- The union of ranges. -/
def ofRanges (l : List (Char × Char)) : CharSet :=
  l.foldr (fun r s => union (range r.1 r.2) s) nothing

end CharSet

end Formwork.Text
