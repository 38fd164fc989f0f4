import Formwork.Numeric.Integer
import Formwork.Text.Pattern.Basic

/-!
# Reading escapes and classes

An escape stands for a character, a set of characters or a test of the place. A class in brackets
lists characters, ranges and further classes, and can be cut down by `&&`, `--` and `~~`.
-/

namespace Formwork.Text

/-- The settings that a pattern can change as it goes on. -/
structure PatternFlags where
  anyCase : Bool := false
  multiLine : Bool := false
  dotAll : Bool := false
  swapGreed : Bool := false
  unicode : Bool := true
  /-- Blanks and comments do not count. -/
  extended : Bool := false
  /-- Carriage returns end lines, too. -/
  returns : Bool := false
  deriving DecidableEq

/-- Leaves out blanks, and comments from `#` to the end of the line. -/
def dropComments (inComment : Bool) : List Char → List Char
  | [] => []
  | c :: rest =>
    if inComment then dropComments (c != '\n') rest
    else if isSpace c then dropComments false rest
    else if c = '#' then dropComments true rest
    else c :: rest

/-- Leaves out what does not count in front of the next character. -/
def PatternFlags.skip (f : PatternFlags) (text : List Char) : List Char :=
  if f.extended then dropComments false text else text

/-- A set that may have to disregard case. -/
def PatternFlags.fold (f : PatternFlags) (s : CharSet) : CharSet :=
  if f.anyCase then .anyCase s else s

/-- A set that may be turned into its complement. -/
def CharSet.negatedIf (negated : Bool) (s : CharSet) : CharSet :=
  if negated then .complement s else s

/-- What an escape stands for. -/
inductive PatternEscape where
  | literal (c : Char)
  | set (s : CharSet)
  | place (t : PlaceTest)
  deriving DecidableEq

/-- Characters that mean something in a pattern. -/
def isMetaCharacter (c : Char) : Bool := "\\.+*?()|[]\x7b\x7d^$#&-~".toList.contains c

/-- Characters that a backslash may stand in front of without need. -/
def isPlainEscape (c : Char) : Bool :=
  isMetaCharacter c || (c.toNat < 128 && !c.isAlphanum && c != '<' && c != '>')

/-- The class of digits, blanks or word characters. -/
def shorthandClass (f : PatternFlags) (c : Char) : CharSet :=
  if f.unicode then
    if c = 'd' then .digit else if c = 's' then .blank else .word
  else
    if c = 'd' then .range '0' '9'
    else if c = 's' then .union (.range '\t' '\r') (.single ' ')
    else .ofRanges [('0', '9'), ('A', 'Z'), ('a', 'z'), ('_', '_')]

/-- Reads up to a mark: what stands in front of it, and the rest behind it. -/
def readUntil (mark : Char) : List Char → Option (List Char × List Char)
  | [] => none
  | c :: rest =>
    if c = mark then some ([], rest)
    else (readUntil mark rest).map fun (name, rest) => (c :: name, rest)

/-- Reads a number of characters. -/
def readCharacters (count : Nat) (text : List Char) : Option (List Char × List Char) :=
  if text.length < count then none else some (text.take count, text.drop count)

/-- Reads the code point behind `\x`, `\u` or `\U`: a fixed number of digits, or any number in
braces. Two digits are a byte without Unicode, and then of the basic alphabet only. -/
def readHexEscape (f : PatternFlags) (count : Nat) (text : List Char) :
    Option (PatternEscape × List Char) :=
  match text with
  | '\x7b' :: rest =>
    (readUntil '\x7d' rest).bind fun (digits, rest) =>
      (Unicode.hexChar? digits).map fun c => (.literal c, rest)
  | text =>
    (readCharacters count text).bind fun (digits, rest) =>
      ((Unicode.hexChar? digits).filter fun c =>
        f.unicode || count != 2 || c.toNat < 128).map fun c => (.literal c, rest)

/-- The property that a text between braces names, and whether it is negated there. -/
def namedProperty? (name : List Char) : Option (Unicode.CharProperty × Bool) :=
  let before := name.takeWhile fun c => c != ':' && c != '='
  match name.dropWhile fun c => c != ':' && c != '=' with
  | [] => (Unicode.CharProperty.ofName? name).map (·, false)
  | _ :: value =>
    if before.getLast? = some '!' then
      (Unicode.CharProperty.ofPair? before.dropLast value).map (·, true)
    else (Unicode.CharProperty.ofPair? before value).map (·, false)

/-- Reads the name of a property: one character, or a text in braces. -/
def readPropertyName : List Char → Option ((Unicode.CharProperty × Bool) × List Char)
  | [] => none
  | c :: rest =>
    if c = '\\' then none
    else if c = '\x7b' then
      (readUntil '\x7d' rest).bind fun (name, rest) => (namedProperty? name).map (·, rest)
    else (Unicode.CharProperty.ofName? [c]).map fun p => ((p, false), rest)

/-- Reads the property behind `\p` or `\P`. -/
def readProperty (f : PatternFlags) (negated : Bool) (text : List Char) :
    Option (PatternEscape × List Char) :=
  if !f.unicode then none
  else (readPropertyName text).map fun ((p, turned), rest) =>
    (.set ((f.fold (.property p)).negatedIf (negated != turned)), rest)

/-- The tests of a word's edge that are named in braces. -/
def namedEdge? : String → Option PlaceTest
  | "start" => some .wordStart
  | "end" => some .wordEnd
  | "start-half" => some .wordStartHalf
  | "end-half" => some .wordEndHalf
  | _ => none

/-- Whether a character can stand in the name of a test of a word's edge. -/
def isEdgeCharacter (c : Char) : Bool := c.isAlpha || c == '-'

/-- Reads the name of a test of a word's edge behind its brace. -/
def readEdgeName (text : List Char) : Option (PlaceTest × List Char) :=
  match text.dropWhile isEdgeCharacter with
  | '\x7d' :: rest =>
    (namedEdge? (String.ofList (text.takeWhile isEdgeCharacter))).map (·, rest)
  | _ => none

/-- Whether a name follows: a brace with a character of names behind it. -/
def namesEdge : List Char → Bool
  | '\x7b' :: c :: _ => isEdgeCharacter c
  | _ => false

/-- Reads what follows `\b`: the edge of a word, or a named one. -/
def readEdge (f : PatternFlags) (text : List Char) : Option (PatternEscape × List Char) :=
  if namesEdge text then (readEdgeName (text.drop 1)).map fun (t, rest) => (.place t, rest)
  else some (.place (if f.unicode then .wordEdge else .plainWordEdge), text)

/-- Reads what follows a letter with a backslash in front of it. -/
def readLetterEscape (f : PatternFlags) (c : Char) :
    List Char → Option (PatternEscape × List Char) :=
  match c with
  | 'x' => readHexEscape f 2
  | 'u' => readHexEscape f 4
  | 'U' => readHexEscape f 8
  | 'p' => readProperty f false
  | 'P' => readProperty f true
  | 'd' | 's' | 'w' => fun rest => some (.set (shorthandClass f c), rest)
  | 'D' | 'S' | 'W' => fun rest =>
    if f.unicode then some (.set (.complement (shorthandClass f c.toLower)), rest) else none
  | 'a' => fun rest => some (.literal '\x07', rest)
  | 'f' => fun rest => some (.literal '\x0c', rest)
  | 't' => fun rest => some (.literal '\t', rest)
  | 'n' => fun rest => some (.literal '\n', rest)
  | 'r' => fun rest => some (.literal '\r', rest)
  | 'v' => fun rest => some (.literal '\x0b', rest)
  | 'A' => fun rest => some (.place .textStart, rest)
  | 'z' => fun rest => some (.place .textEnd, rest)
  | 'b' => readEdge f
  | 'B' => fun rest => some (.place (if f.unicode then .noWordEdge else .noPlainWordEdge), rest)
  | '<' => fun rest => some (.place .wordStart, rest)
  | '>' => fun rest => some (.place .wordEnd, rest)
  | _ => fun _ => none

/-- Reads an escape behind its backslash. -/
def readEscape (f : PatternFlags) : List Char → Option (PatternEscape × List Char)
  | [] => none
  | c :: rest => if isPlainEscape c then some (.literal c, rest) else readLetterEscape f c rest

/-- The classes of the basic alphabet that are named between `[:` and `:]`. -/
def basicClasses : List (String × List (Char × Char)) :=
  [("alnum", [('0', '9'), ('A', 'Z'), ('a', 'z')]), ("alpha", [('A', 'Z'), ('a', 'z')]),
    ("ascii", [('\x00', '\x7f')]), ("blank", [('\t', '\t'), (' ', ' ')]),
    ("cntrl", [('\x00', '\x1f'), ('\x7f', '\x7f')]), ("digit", [('0', '9')]),
    ("graph", [('!', '~')]), ("lower", [('a', 'z')]), ("print", [(' ', '~')]),
    ("punct", [('!', '/'), (':', '@'), ('[', '`'), ('\x7b', '~')]),
    ("space", [('\t', '\r'), (' ', ' ')]), ("upper", [('A', 'Z')]),
    ("word", [('0', '9'), ('A', 'Z'), ('_', '_'), ('a', 'z')]),
    ("xdigit", [('0', '9'), ('A', 'F'), ('a', 'f')])]

/-- Reads the name of a class of the basic alphabet up to its closing mark. -/
def readClassName (text : List Char) : Option (List (Char × Char) × List Char) :=
  match readUntil ':' text with
  | some (name, ']' :: rest) => (basicClasses.lookup (String.ofList name)).map (·, rest)
  | _ => none

/-- Reads a named class of the basic alphabet behind its opening bracket. -/
def readBasicClass (f : PatternFlags) : List Char → Option (CharSet × List Char)
  | ':' :: '^' :: rest =>
    (readClassName rest).map fun (ranges, rest) => (.complement (f.fold (.ofRanges ranges)), rest)
  | ':' :: rest => (readClassName rest).map fun (ranges, rest) => (f.fold (.ofRanges ranges), rest)
  | _ => none

/-- What two sets are combined to. -/
inductive SetOperation where
  | both
  | without
  | either
  deriving DecidableEq

/-- Combines two sets. -/
def SetOperation.apply : SetOperation → CharSet → CharSet → CharSet
  | both, a, b => .both a b
  | without, a, b => .without a b
  | either, a, b => .either a b

/-- A class that is being read: whether its complement is meant, what stands left of an operator,
and what has been listed since. -/
structure OpenClass where
  negated : Bool
  left : Option (SetOperation × CharSet) := none
  listed : CharSet := .nothing

namespace OpenClass

/-- Lists one more set. -/
def add (k : OpenClass) (s : CharSet) : OpenClass := { k with listed := .union k.listed s }

/-- The value up to here. -/
def value (f : PatternFlags) (k : OpenClass) : CharSet :=
  match k.left with
  | none => k.listed
  | some (op, a) => op.apply (f.fold a) (f.fold k.listed)

/-- Goes on behind an operator. -/
def operate (f : PatternFlags) (op : SetOperation) (k : OpenClass) : OpenClass :=
  { k with left := some (op, k.value f), listed := .nothing }

/-- The set of the whole class. Without Unicode there are no complements, which would have parts of
characters in them. -/
def close? (f : PatternFlags) (k : OpenClass) : Option CharSet :=
  if k.negated && !f.unicode then none else some ((f.fold (k.value f)).negatedIf k.negated)

end OpenClass

/-- Reads hyphens in front of a class; they stand for themselves. -/
def readHyphens (f : PatternFlags) (k : OpenClass) : Nat → List Char → OpenClass × List Char
  | fuel + 1, '-' :: rest => readHyphens f (k.add (.single '-')) fuel (f.skip rest)
  | _, text => (k, text)

/-- Reads the beginning of a class behind its bracket and the sign of a complement. A closing
bracket right there stands for itself. -/
def readFirst (f : PatternFlags) (k : OpenClass) : List Char → OpenClass × List Char
  | ']' :: rest => (k.add (.single ']'), f.skip rest)
  | text => readHyphens f k text.length text

/-- Reads the sign of a complement and what stands behind it. -/
def readSign (f : PatternFlags) : List Char → OpenClass × List Char
  | '^' :: rest => readFirst f { negated := true } (f.skip rest)
  | text => readFirst f { negated := false } text

/-- Reads the beginning of a class behind its bracket. -/
def openClass (f : PatternFlags) (text : List Char) : OpenClass × List Char :=
  readSign f (f.skip text)

/-- An item of a class: a character or a set. -/
inductive ClassItem where
  | character (c : Char)
  | set (s : CharSet)
  deriving DecidableEq

/-- The set of an item. -/
def ClassItem.toSet : ClassItem → CharSet
  | character c => .single c
  | set s => s

/-- The set of the characters from one item to another. -/
def ClassItem.range? : ClassItem → ClassItem → Option CharSet
  | character low, character high => if low ≤ high then some (.range low high) else none
  | _, _ => none

/-- The item that an escape stands for; without Unicode characters are of the basic alphabet. -/
def PatternEscape.classItem? (f : PatternFlags) : PatternEscape → Option ClassItem
  | literal c => if f.unicode || c.toNat < 128 then some (.character c) else none
  | set s => some (.set s)
  | place _ => none

/-- Reads a character or a set inside a class. -/
def readClassItem (f : PatternFlags) : List Char → Option (ClassItem × List Char)
  | [] => none
  | c :: rest =>
    if c = '\\' then (readEscape f rest).bind fun (e, rest) => (e.classItem? f).map (·, rest)
    else ((PatternEscape.literal c).classItem? f).map (·, rest)

/-- Reads what follows an item: the rest of a range, unless the hyphen belongs to an operator or
stands at the end of the class. -/
def readRangeEnd (f : PatternFlags) (low : ClassItem) :
    List Char → Option (CharSet × List Char)
  | '-' :: rest =>
    match f.skip rest with
    | [] => none
    | c :: after =>
      if c = ']' ∨ c = '-' then some (low.toSet, '-' :: rest)
      else (readClassItem f (c :: after)).bind fun (high, rest) => (low.range? high).map (·, rest)
  | text => some (low.toSet, text)

/-- Reads a character, a set or a range inside a class. -/
def readClassRange (f : PatternFlags) (text : List Char) : Option (CharSet × List Char) :=
  (readClassItem f text).bind fun (item, rest) => readRangeEnd f item (f.skip rest)

/-- The operator that a mark stands for. -/
def SetOperation.ofMark? : Char → Option SetOperation
  | '&' => some both
  | '-' => some without
  | '~' => some either
  | _ => none

/-- Reads an operator: a mark that stands twice. -/
def readOperator : List Char → Option (SetOperation × List Char)
  | c :: d :: rest => if c = d then (SetOperation.ofMark? c).map (·, rest) else none
  | _ => none

/-- Reads a class up to its closing bracket; the classes around it wait in `outer`. -/
def readClassFrom (f : PatternFlags) :
    Nat → List OpenClass → OpenClass → List Char → Option (CharSet × List Char)
  | 0, _, _, _ => none
  | fuel + 1, outer, k, text =>
    match f.skip text with
    | [] => none
    | c :: rest =>
      if c = '[' then
        match readBasicClass f rest with
        | some (s, rest) => readClassFrom f fuel outer (k.add s) rest
        | none => readClassFrom f fuel (k :: outer) (openClass f rest).1 (openClass f rest).2
      else if c = ']' then
        (k.close? f).bind fun s =>
          match outer with
          | [] => some (s, rest)
          | around :: outer => readClassFrom f fuel outer (around.add s) rest
      else
        match readOperator (c :: rest) with
        | some (op, rest) => readClassFrom f fuel outer (k.operate f op) rest
        | none =>
          (readClassRange f (c :: rest)).bind fun (s, rest) =>
            readClassFrom f fuel outer (k.add s) rest

/-- Reads a class behind its opening bracket. -/
def readClass (f : PatternFlags) (text : List Char) : Option (CharSet × List Char) :=
  readClassFrom f ((openClass f text).2.length + 1) [] (openClass f text).1 (openClass f text).2

end Formwork.Text
