import Formwork.Text.Pattern.Class

/-!
# Reading patterns

`Pattern.parse?` reads the usual notation: choices, groups, classes, escapes, settings such as
`(?i)`, and repetitions. Groups are kept on a stack, so a setting made inside a group ends with it.
-/

namespace Formwork.Text

/-- A group that is still open: the settings around it, and what has been read there. -/
structure OpenGroup where
  flags : PatternFlags
  choices : List Pattern
  items : List Pattern

/-- What has been read of a pattern: of the innermost group its finished choices and the items of
the present one, both in reverse. -/
structure PatternReader where
  flags : PatternFlags := {}
  choices : List Pattern := []
  items : List Pattern := []
  /-- Whether the last item can be repeated. -/
  repeatable : Bool := false
  groups : List OpenGroup := []
  /-- The names of groups. -/
  names : List (List Char) := []

namespace PatternReader

/-- Items one after the other. -/
def joined (items : List Pattern) : Pattern :=
  items.foldl (fun rest a => match rest with
    | .empty => a
    | rest => .sequence a rest) .empty

/-- The pattern of the innermost group. -/
def group (r : PatternReader) : Pattern :=
  r.choices.foldl (fun rest a => .choice a rest) (joined r.items)

/-- Appends an item. -/
def push (r : PatternReader) (a : Pattern) : PatternReader :=
  { r with items := a :: r.items, repeatable := true }

/-- Appends a character or set that may have to disregard case. -/
def pushSet (r : PatternReader) (s : CharSet) : PatternReader := r.push (.one s)

/-- Goes on to the next choice. -/
def nextChoice (r : PatternReader) : PatternReader :=
  { r with choices := joined r.items :: r.choices, items := [], repeatable := false }

/-- Opens a group with settings of its own. -/
def openGroup (r : PatternReader) (inside : PatternFlags) : PatternReader :=
  { r with
    flags := inside, choices := [], items := [], repeatable := false
    groups := ⟨r.flags, r.choices, r.items⟩ :: r.groups }

/-- Closes the innermost group. -/
def closeGroup? (r : PatternReader) : Option PatternReader :=
  match r.groups with
  | [] => none
  | g :: groups =>
    some (({ r with flags := g.flags, choices := g.choices, items := g.items, groups } :
      PatternReader).push r.group)

/-- Repeats the last item. -/
def repeated? (r : PatternReader) (b : Bounds) : Option PatternReader :=
  match r.repeatable, r.items with
  | true, a :: items => some { r with items := .repeated a b :: items }
  | _, _ => none

end PatternReader

/-- Sets one setting. -/
def PatternFlags.set? (f : PatternFlags) (c : Char) (on : Bool) : Option PatternFlags :=
  match c with
  | 'i' => some { f with anyCase := on }
  | 'm' => some { f with multiLine := on }
  | 's' => some { f with dotAll := on }
  | 'U' => some { f with swapGreed := on }
  | 'u' => some { f with unicode := on }
  | 'x' => some { f with extended := on }
  | 'R' => some { f with returns := on }
  | _ => none

/-- Reads settings up to the colon or parenthesis behind them: the settings, that mark, and the
rest. `seen` holds the letters so far, and a hyphen turns off what follows it. Some letter must
stand in front of a parenthesis. -/
def readFlags (f : PatternFlags) (on : Bool) (seen : List Char) :
    List Char → Option ((PatternFlags × Char) × List Char)
  | [] => none
  | c :: rest =>
    if c = ':' ∨ c = ')' then
      if seen.head? = some '-' ∨ (seen = [] ∧ c = ')') then none else some ((f, c), rest)
    else if seen.contains c then none
    else if c = '-' then readFlags f false (c :: seen) rest
    else
      match f.set? c on with
      | some f => readFlags f on (c :: seen) rest
      | none => none

/-- Whether a text can name a group. -/
def isGroupName : List Char → Bool
  | [] => false
  | c :: rest =>
    (c == '_' || Unicode.isAlphabetic c) &&
      rest.all fun c => c == '_' || c == '.' || c == '[' || c == ']' || Unicode.isAlphabetic c ||
        Unicode.Category.of c matches .decimalNumber | .letterNumber | .otherNumber

/-- Opens a group with a name of its own. -/
def PatternReader.named? (r : PatternReader) (name : List Char) : Option PatternReader :=
  if isGroupName name && !r.names.contains name then
    some { r.openGroup r.flags with names := name :: r.names }
  else none

/-- Reads the name of a group and opens it. -/
def PatternReader.openNamed? (r : PatternReader) (text : List Char) :
    Option (PatternReader × List Char) :=
  (readUntil '>' text).bind fun (name, rest) => (r.named? name).map (·, rest)

/-- Reads the name of a group behind the letter that may stand in front of its bracket. -/
def PatternReader.openMarked? (r : PatternReader) :
    List Char → Option (PatternReader × List Char)
  | '<' :: rest => r.openNamed? rest
  | _ => none

/-- Settings hold inside a group, or from here on if they have parentheses of their own. -/
def PatternReader.set (r : PatternReader) (f : PatternFlags) (mark : Char) : PatternReader :=
  if mark = ':' then r.openGroup f else { r with flags := f, repeatable := false }

/-- Reads a named group with the letter that may stand in front of its bracket, or settings. -/
def PatternReader.readMarkedKind (r : PatternReader) :
    List Char → Option (PatternReader × List Char)
  | 'P' :: rest => r.openMarked? rest
  | text => (readFlags r.flags true [] text).map fun ((f, mark), rest) => (r.set f mark, rest)

/-- Reads what follows an opening parenthesis with a question mark: a named group, or settings. -/
def PatternReader.readGroupKind (r : PatternReader) :
    List Char → Option (PatternReader × List Char)
  | '<' :: rest => r.openNamed? rest
  | text => r.readMarkedKind text

/-- Reads what follows an opening parenthesis: a group, a named group, or settings. -/
def PatternReader.readOpening (r : PatternReader) (text : List Char) :
    Option (PatternReader × List Char) :=
  match r.flags.skip text with
  | '?' :: rest => r.readGroupKind rest
  | _ => some (r.openGroup r.flags, text)

/-- The greatest number in a repetition. -/
def greatestCount : Nat := 0xffffffff

/-- Reads a number with blanks around it. -/
def readCountNumber (text : List Char) : Option (Nat × List Char) :=
  let text := trimLeft text
  ((Numeric.readDigits (text.takeWhile Char.isDigit)).filter (· ≤ greatestCount)).map
    (·, trimLeft (text.dropWhile Char.isDigit))

/-- A lazy repetition matches the same texts. -/
def dropLazyMark : List Char → List Char
  | '?' :: rest => rest
  | text => text

/-- A lazy mark may stand behind blanks and comments. -/
def PatternFlags.dropLazyMark (f : PatternFlags) (text : List Char) : List Char :=
  match f.skip text with
  | '?' :: rest => rest
  | _ => text

/-- Reads a closing brace. -/
def readBrace : List Char → Option (Unit × List Char)
  | '\x7d' :: rest => some ((), rest)
  | _ => none

/-- Reads the greatest number of rounds up to the closing brace. -/
def readMost (least : Nat) : List Char → Option (Bounds × List Char)
  | '\x7d' :: rest => some (.atLeast least, rest)
  | text =>
    (readCountNumber text).bind fun (most, rest) =>
      (readBrace rest).bind fun (_, rest) => (Bounds.ofRange? least most).map (·, rest)

/-- Reads the comma behind the least number of rounds, and the greatest one. -/
def readComma (f : PatternFlags) (least : Nat) : List Char → Option (Bounds × List Char)
  | ',' :: rest => readMost least (f.skip rest)
  | _ => none

/-- Reads what follows the least number of rounds. -/
def readBoundsEnd (f : PatternFlags) (least : Nat) : List Char → Option (Bounds × List Char)
  | '\x7d' :: rest => some (.exactly least, rest)
  | text => readComma f least text

/-- Reads the bounds of a repetition behind its brace. -/
def readCount (f : PatternFlags) (text : List Char) : Option (Bounds × List Char) :=
  (readCountNumber (f.skip text)).bind fun (least, rest) => readBoundsEnd f least rest

/-- The set of the dot. -/
def PatternFlags.dot? (f : PatternFlags) : Option CharSet :=
  if !f.unicode then none
  else if f.dotAll then some .all
  else if f.returns then some (.complement (.union (.single '\n') (.single '\r')))
  else some (.complement (.single '\n'))

/-- The test of `^`. -/
def PatternFlags.startTest (f : PatternFlags) : PlaceTest :=
  if !f.multiLine then .textStart else if f.returns then .returnLineStart else .lineStart

/-- The test of `$`. -/
def PatternFlags.endTest (f : PatternFlags) : PlaceTest :=
  if !f.multiLine then .textEnd else if f.returns then .returnLineEnd else .lineEnd

/-- Appends what an escape stands for. -/
def PatternReader.pushEscape (r : PatternReader) : PatternEscape → PatternReader
  | .literal c => r.pushSet (r.flags.fold (.single c))
  | .set s => r.pushSet s
  | .place t => r.push (.place t)

/-- Repeats the last item as often as the bounds behind a brace say. -/
def PatternReader.readRepetition (r : PatternReader) (text : List Char) :
    Option (PatternReader × List Char) :=
  (readCount r.flags text).bind fun (b, rest) =>
    (r.repeated? b).map (·, r.flags.dropLazyMark rest)

/-- Reads one item of a pattern, from its first character on. -/
def PatternReader.step (r : PatternReader) (c : Char) :
    List Char → Option (PatternReader × List Char) :=
  match c with
  | '(' => r.readOpening
  | ')' => fun rest => r.closeGroup?.map (·, rest)
  | '|' => fun rest => some (r.nextChoice, rest)
  | '?' => fun rest => (r.repeated? .optional).map (·, dropLazyMark rest)
  | '*' => fun rest => (r.repeated? (.atLeast 0)).map (·, dropLazyMark rest)
  | '+' => fun rest => (r.repeated? (.atLeast 1)).map (·, dropLazyMark rest)
  | '\x7b' => r.readRepetition
  | '[' => fun rest => (readClass r.flags rest).map fun (s, rest) => (r.pushSet s, rest)
  | '.' => fun rest => r.flags.dot?.map fun s => (r.pushSet s, rest)
  | '^' => fun rest => some (r.push (.place r.flags.startTest), rest)
  | '$' => fun rest => some (r.push (.place r.flags.endTest), rest)
  | '\\' => fun rest => (readEscape r.flags rest).map fun (e, rest) => (r.pushEscape e, rest)
  | c => fun rest => some (r.pushSet (r.flags.fold (.single c)), rest)

/-- Reads items up to the end of the text; every group must be closed by then. -/
def PatternReader.read : Nat → PatternReader → List Char → Option Pattern
  | 0, _, _ => none
  | fuel + 1, r, text =>
    match r.flags.skip text with
    | [] => if r.groups.isEmpty then some r.group else none
    | c :: rest =>
      match r.step c rest with
      | some (r, rest) => r.read fuel rest
      | none => none

/-- Reads a pattern; a text that is no pattern gives none. -/
def Pattern.parse? (text : String) : Option Pattern :=
  PatternReader.read (text.toList.length + 1) {} text.toList

end Formwork.Text
