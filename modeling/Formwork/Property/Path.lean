import Formwork.Text.Blank

/-!
# Property paths

A path names a place inside a bean: names between points, and indexes or keys in brackets, as in
`items[0].name` or `map['a.b']`. A key in quotes may hold any character but its quote; white space
around a key without quotes does not count.
-/

namespace Formwork

/-- One step of a path. -/
inductive Segment where
  | property (name : String)
  /-- An index or a key, without its quotes. -/
  | index (key : String)
  deriving DecidableEq

namespace Segment

/-- The name or key. -/
def key : Segment → String
  | property name => name
  | index key => key

/-- The step as text: an index stands in brackets. -/
def text : Segment → String
  | property name => name
  | index key => "[" ++ key ++ "]"

end Segment

/-- Why a text is no path. Positions count characters from zero. -/
inductive PathError where
  | empty
  /-- A name or key without characters. -/
  | emptySegment (position : Nat)
  /-- A bracket that no bracket closes. -/
  | unclosedBracket (position : Nat)
  | unexpectedCharacter (found : Char) (position : Nat)
  deriving DecidableEq

namespace PathError

/-- The text of the error. -/
def message : PathError → String
  | empty => "property path is empty"
  | emptySegment p => "empty property name at position " ++ toString p
  | unclosedBracket p => "unclosed '[' at position " ++ toString p
  | unexpectedCharacter c p =>
    "unexpected character '" ++ c.toString ++ "' at position " ++ toString p

end PathError

/-- Where a reader of a path stands. Characters read are kept in reverse. -/
inductive PathState where
  /-- In a name, or in front of one. -/
  | name (read : List Char)
  /-- Behind a closing bracket. -/
  | afterBracket
  /-- Right behind the bracket at a position. -/
  | opened (bracket : Nat)
  /-- In a key without quotes. -/
  | key (bracket : Nat) (read : List Char)
  /-- In a key between quotes of a kind. -/
  | quoted (bracket : Nat) (quote : Char) (read : List Char)
  /-- Behind the closing quote of a key. -/
  | unquoted (bracket : Nat) (read : List Char)
  deriving DecidableEq

namespace PathState

/-- The name that ends here, if it has any characters. -/
def nameSegment (read : List Char) : List Segment :=
  if read.isEmpty then [] else [.property (String.ofList read.reverse)]

/-- A closing bracket after a key without quotes. -/
def closeKey (read : List Char) (position : Nat) : Except PathError (PathState × List Segment) :=
  let key := Text.trimChars read.reverse
  if key.isEmpty then .error (.emptySegment position)
  else .ok (.afterBracket, [.index (String.ofList key)])

/-- Reads one character: the next state, and the segments that end with it. -/
def step (position : Nat) (c : Char) : PathState → Except PathError (PathState × List Segment)
  | name read =>
    if c = '.' then
      if read.isEmpty then .error (.emptySegment position) else .ok (.name [], nameSegment read)
    else if c = '[' then .ok (.opened position, nameSegment read)
    else if c = ']' then .error (.unexpectedCharacter c position)
    else .ok (.name (c :: read), [])
  | afterBracket =>
    if c = '.' then .ok (.name [], [])
    else if c = '[' then .ok (.opened position, [])
    else .error (.unexpectedCharacter c position)
  | opened bracket =>
    if c = '\'' ∨ c = '"' then .ok (.quoted bracket c [], [])
    else if c = ']' then closeKey [] position
    else .ok (.key bracket [c], [])
  | key bracket read =>
    if c = ']' then closeKey read position else .ok (.key bracket (c :: read), [])
  | quoted bracket quote read =>
    if c = quote then .ok (.unquoted bracket read, [])
    else .ok (.quoted bracket quote (c :: read), [])
  | unquoted _ read =>
    if c = ']' then .ok (.afterBracket, [.index (String.ofList read.reverse)])
    else .error (.unexpectedCharacter c position)

/-- The end of the text: the segment that ends with it. -/
def finish (position : Nat) : PathState → Except PathError (List Segment)
  | name read => if read.isEmpty then .error (.emptySegment position) else .ok (nameSegment read)
  | afterBracket => .ok []
  | opened bracket | key bracket _ | quoted bracket _ _ | unquoted bracket _ =>
    .error (.unclosedBracket bracket)

/-- Reads the rest of a text from a position on. -/
def read (s : PathState) (position : Nat) : List Char → Except PathError (List Segment)
  | [] => s.finish position
  | c :: rest =>
    match s.step position c with
    | .error e => .error e
    | .ok (next, segments) =>
      match next.read (position + 1) rest with
      | .error e => .error e
      | .ok more => .ok (segments ++ more)

end PathState

/-- A place inside a bean. -/
structure PropertyPath where
  /-- The path as written. -/
  raw : String
  segments : List Segment
  deriving DecidableEq

/-- Reads a path. -/
def PropertyPath.parse (raw : String) : Except PathError PropertyPath :=
  if Text.isBlank raw then .error .empty
  else (PathState.read (.name []) 0 raw.toList).map fun segments => ⟨raw, segments⟩

end Formwork
