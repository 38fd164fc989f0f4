/-!
# Address patterns

A pattern is matched against the segments of a path, from the first one on. A literal segment
matches itself, a parameter such as `{id}` any segment. Of two patterns that match, the longer one
is more specific, and of two of one length the one with more literal segments.
-/

namespace Formwork

/-- A segment of a pattern. -/
inductive PatternSegment where
  | literal (text : String)
  | parameter (name : String)
  deriving DecidableEq

/-- Whether a segment of a path matches. -/
def PatternSegment.admits (p : PatternSegment) (segment : String) : Bool :=
  match p with
  | literal text => text == segment
  | parameter _ => !segment.isEmpty

/-- Whether some segment of a path matches both. -/
def PatternSegment.overlaps : PatternSegment → PatternSegment → Bool
  | literal a, literal b => a == b
  | _, _ => true

/-- The segments of a path between slashes, without empty ones, up to a query or a fragment. -/
def pathSegments (path : String) : List String :=
  let bare := path.toList.takeWhile fun c => c != '?' && c != '#'
  ((bare.splitOn '/').filter fun s => !s.isEmpty).map String.ofList

/-- A pattern of addresses. -/
structure AddressPattern where
  /-- The pattern as written. -/
  text : String
  segments : List PatternSegment
  deriving DecidableEq

/-- What is wrong with a pattern. -/
inductive PatternFault where
  | noSlash
  | badName
  | partialParameter
  | noSegments
  deriving DecidableEq

/-- The wording of a fault. -/
def PatternFault.reason : PatternFault → String
  | noSlash => "must start with '/'"
  | badName => "empty or nested parameter name"
  | partialParameter => "parameters must span a whole path segment"
  | noSegments => "must contain at least one path segment"

namespace AddressPattern

/-- Whether a character is a brace. -/
def isBrace (c : Char) : Bool := c == '\x7b' || c == '\x7d'

/-- The name between the braces of a parameter. -/
def bracedName? (segment : List Char) : Option (List Char) :=
  match segment with
  | '\x7b' :: rest => if rest.getLast? = some '\x7d' then some rest.dropLast else none
  | _ => none

/-- Reads one segment. -/
def readSegment (segment : String) : Except PatternFault PatternSegment :=
  match bracedName? segment.toList with
  | some name =>
    if name.isEmpty || name.any isBrace then .error .badName
    else .ok (.parameter (String.ofList name))
  | none =>
    if segment.toList.any isBrace then .error .partialParameter else .ok (.literal segment)

/-- Reads a pattern. -/
def parse (text : String) : Except PatternFault AddressPattern :=
  if text.toList.head? != some '/' then .error .noSlash
  else
    match (pathSegments text).mapM readSegment with
    | .error e => .error e
    | .ok [] => .error .noSegments
    | .ok segments => .ok ⟨text, segments⟩

/-- The names of the parameters in order. -/
def parameterNames (p : AddressPattern) : List String :=
  p.segments.filterMap fun s => match s with
    | .parameter name => some name
    | .literal _ => none

/-- The number of literal segments. -/
def literalCount (p : AddressPattern) : Nat :=
  (p.segments.filter fun s => s matches .literal _).length

/-- Whether a pattern is at least as specific as another one. -/
def covers (p q : AddressPattern) : Bool :=
  q.segments.length < p.segments.length ||
    (q.segments.length == p.segments.length && q.literalCount ≤ p.literalCount)

/-- Whether two patterns match some path and neither is more specific. -/
def ambiguousWith (p q : AddressPattern) : Bool :=
  p.segments.length == q.segments.length && p.literalCount == q.literalCount &&
    (p.segments.zip q.segments).all fun s => s.1.overlaps s.2

/-- Matches segments of a path: the captured values and the segments left over. -/
def matchSegments :
    List PatternSegment → List String → Option (List (String × String) × List String)
  | [], rest => some ([], rest)
  | _ :: _, [] => none
  | p :: ps, s :: rest =>
    if p.admits s then
      (matchSegments ps rest).map fun (captured, left) =>
        match p with
        | .parameter name => ((name, s) :: captured, left)
        | .literal _ => (captured, left)
    else none

end AddressPattern

end Formwork
