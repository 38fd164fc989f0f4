import Formwork.Text.Pattern.CharSet

/-!
# Patterns

A pattern describes texts. Besides characters it can ask for something about the place where it
stands: the start or the end of the text or of a line, or the edge of a word. Which texts it
matches is decided by partial derivatives: what may come after the next character is a finite list
of patterns.

* `Pattern.accepts`: whether the pattern matches nothing at a place.
* `Pattern.after`: the patterns for what may follow a character.
* `Pattern.matchesWhole`, `Pattern.matchesWithin`: whether a pattern matches a text, or a part of
  it.
-/

namespace Formwork.Text

/-- A place in a text: the characters on both sides. -/
structure Place where
  before : Option Char
  after : Option Char

/-- What a pattern can ask for about a place. -/
inductive PlaceTest where
  | textStart
  | textEnd
  | lineStart
  | lineEnd
  /-- Line starts where a carriage return ends a line, too. -/
  | returnLineStart
  | returnLineEnd
  | wordEdge
  | noWordEdge
  | wordStart
  | wordEnd
  | wordStartHalf
  | wordEndHalf
  /-- The edge of a word of the basic alphabet. -/
  | plainWordEdge
  | noPlainWordEdge
  deriving DecidableEq

/-- Whether there is a character of a word. -/
def isWordSide (c : Option Char) : Bool := c.any Unicode.isWord

/-- Whether there is a character of a word of the basic alphabet. -/
def isPlainWordSide (c : Option Char) : Bool := c.any fun c => c.isAlphanum || c == '_'

/-- Whether a place is as asked for. -/
def PlaceTest.holds (p : Place) : PlaceTest → Bool
  | textStart => p.before.isNone
  | textEnd => p.after.isNone
  | lineStart => p.before.all (· == '\n')
  | lineEnd => p.after.all (· == '\n')
  | returnLineStart =>
    p.before.all (· == '\n') || (p.before == some '\r' && p.after != some '\n')
  | returnLineEnd =>
    p.after.all (· == '\r') || (p.after == some '\n' && p.before != some '\r')
  | wordEdge => isWordSide p.before != isWordSide p.after
  | noWordEdge => isWordSide p.before == isWordSide p.after
  | wordStart => !isWordSide p.before && isWordSide p.after
  | wordEnd => isWordSide p.before && !isWordSide p.after
  | wordStartHalf => !isWordSide p.before
  | wordEndHalf => !isWordSide p.after
  | plainWordEdge => isPlainWordSide p.before != isPlainWordSide p.after
  | noPlainWordEdge => isPlainWordSide p.before == isPlainWordSide p.after

/-- How often a pattern is repeated: the least number of rounds, and the greatest if there is
one. -/
structure Bounds where
  least : Nat
  most : Option Nat
  le : ∀ m ∈ most, least ≤ m
  deriving DecidableEq

namespace Bounds

/-- At least a number of rounds. -/
def atLeast (least : Nat) : Bounds := ⟨least, none, by simp⟩

/-- A fixed number of rounds. -/
def exactly (count : Nat) : Bounds := ⟨count, some count, by simp⟩

/-- At most one round. -/
def optional : Bounds := ⟨0, some 1, by simp⟩

/-- The bounds from one number to another. -/
def ofRange? (least most : Nat) : Option Bounds :=
  if h : least ≤ most then some ⟨least, some most, by simpa⟩ else none

/-- The bounds behind the first round. Where a round may match nothing, those that are still due may
all have done so. -/
def next (b : Bounds) (blank : Bool) : Bounds where
  least := if blank then 0 else b.least - 1
  most := b.most.map (· - 1)
  le m hm := by
    obtain ⟨k, hk, rfl⟩ := Option.map_eq_some_iff.mp hm
    have := b.le k hk
    split <;> omega

end Bounds

/-- A pattern. -/
inductive Pattern where
  /-- The empty text. -/
  | empty
  /-- One character of a set. -/
  | one (s : CharSet)
  /-- The empty text at a place. -/
  | place (t : PlaceTest)
  | sequence (a b : Pattern)
  | choice (a b : Pattern)
  | repeated (a : Pattern) (b : Bounds)
  deriving DecidableEq

namespace Pattern

/-- Any text. -/
def anything : Pattern := repeated (one .all) (.atLeast 0)

/-- Whether the pattern matches nothing at a place. -/
def accepts (p : Place) : Pattern → Bool
  | empty => true
  | one _ => false
  | place t => t.holds p
  | sequence a b => a.accepts p && b.accepts p
  | choice a b => a.accepts p || b.accepts p
  | repeated a b => b.least == 0 || a.accepts p

/-- One after the other, where an empty first pattern is left out. -/
def andThen (a b : Pattern) : Pattern :=
  match a with
  | empty => b
  | a => sequence a b

/-- The patterns for what may follow the character behind a place. -/
def after (p : Place) (c : Char) : Pattern → List Pattern
  | empty => []
  | one s => if s.contains c then [empty] else []
  | place _ => []
  | sequence a b =>
    let first := (a.after p c).map (andThen · b)
    if a.accepts p then first ++ b.after p c else first
  | choice a b => a.after p c ++ b.after p c
  | repeated a b =>
    if b.most = some 0 then []
    else (a.after p c).map (andThen · (repeated a (b.next (a.accepts p))))

/-- Whether one of the patterns matches the rest of a text, up to its end. -/
def anyMatches (before : Option Char) : List Pattern → List Char → Bool
  | patterns, [] => patterns.any (accepts ⟨before, none⟩)
  | patterns, c :: rest =>
    anyMatches (some c) (patterns.flatMap (after ⟨before, some c⟩ c)).eraseDups rest

/-- Whether the pattern matches a whole text. -/
def matchesWhole (a : Pattern) (text : List Char) : Bool := anyMatches none [a] text

/-- Whether the pattern matches a part of a text. -/
def matchesWithin (a : Pattern) (text : List Char) : Bool :=
  (sequence anything (sequence a anything)).matchesWhole text

end Pattern

end Formwork.Text
