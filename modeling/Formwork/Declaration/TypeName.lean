import Formwork.Declaration.Identifier

/-!
# Types in declarations

The type of a field is read as far as it takes to find the bean in it: the beans of a property stand
in options, boxes, sequences, or as the values of maps.
-/

namespace Formwork.Declaration

open Text.Unicode

/-- Cuts a text at the commas that stand outside all brackets. `previous` is the character in front,
since the angle of an arrow closes nothing. -/
def splitArguments (depth : Nat) (previous : Char) : List Char → List (List Char)
  | [] => [[]]
  | c :: rest =>
    if c = ',' ∧ depth = 0 then [] :: splitArguments 0 c rest
    else
      let inner :=
        if c = '<' ∨ c = '(' ∨ c = '[' ∨ c = '\x7b' then depth + 1
        else if c = ')' ∨ c = ']' ∨ c = '\x7d' ∨ (c = '>' ∧ previous ≠ '-') then depth - 1
        else depth
      match splitArguments inner c rest with
      | [] => [[c]]
      | part :: parts => (c :: part) :: parts

/-- What stands before the angle that closes an open one, and what follows it. -/
def splitAngle (depth : Nat) (previous : Char) : List Char → Option (List Char × List Char)
  | [] => none
  | c :: rest =>
    let closes := c = '>' ∧ previous ≠ '-'
    if closes ∧ depth = 0 then some ([], rest)
    else
      let inner := if closes then depth - 1 else if c = '<' then depth + 1 else depth
      (splitAngle inner c rest).map fun (inside, after) => (c :: inside, after)

/-- The last name of a path with what stands in its angles, if the text is a path and the name has
angles. -/
def lastSegment? : Nat → List Char → Option (List Char × List Char)
  | 0, _ => none
  | fuel + 1, text =>
    let text := Text.trimLeft text
    let name := text.takeWhile fun c => isIdentifierPart c || c == '#'
    let rest := Text.trimLeft (text.drop name.length)
    let next (after : List Char) : Option (List Char × List Char) :=
      match Text.trimLeft after with
      | ':' :: ':' :: after => lastSegment? fuel after
      | _ => none
    let enclosed (after : List Char) : Option (List Char × List Char) :=
      (splitAngle 0 ' ' after).bind fun (inside, after) =>
        if (Text.trimLeft after).isEmpty then some (name, inside) else next after
    if name.isEmpty then none
    else
      match rest with
      | '<' :: after => enclosed after
      | ':' :: ':' :: after =>
        match Text.trimLeft after with
        | '<' :: after => enclosed after
        | after => lastSegment? fuel after
      | _ => none

/-- A path without the type or the colons that it begins with. -/
def pathBody (text : List Char) : List Char :=
  match Text.trimLeft text with
  | ':' :: ':' :: rest => rest
  | '<' :: rest =>
    match splitAngle 0 ' ' rest with
    | some (_, after) => (Text.trimLeft after).drop 2
    | none => []
  | text => text

/-- Whether an argument in angles is a type, and neither a lifetime, a constant nor a named one. -/
def isTypeArgument (text : List Char) : Bool :=
  match Text.trimChars text with
  | [] => false
  | c :: rest =>
    let named := rest.dropWhile isIdentifierPart
    let constant := c == '\'' || c == '"' || c == '-' || c == '\x7b' || c.isDigit
    let assigned := match Text.trimLeft named with
      | '=' :: _ => true
      | ':' :: d :: _ => d != ':'
      | _ => false
    let truth := c :: rest == "true".toList || c :: rest == "false".toList
    !constant && !truth && !(startsName c && assigned)

/-- The type in a container that the bean stands in. -/
def elementType? (name inside : List Char) : Option (List Char) :=
  let types := (splitArguments 0 ' ' inside).filter isTypeArgument
  match String.ofList name with
  | "Option" | "Box" | "Vec" => types.head?
  | "HashMap" | "BTreeMap" => types.getLast?
  | _ => none

/-- The type inside all containers. -/
def innermost : Nat → List Char → List Char
  | 0, text => text
  | fuel + 1, text =>
    match lastSegment? text.length (pathBody text) with
    | some (name, inside) =>
      match elementType? name inside with
      | some inner => innermost fuel inner
      | none => text
    | none => text

/-- The bean in a type, without white space. -/
def innerType (type : String) : String :=
  String.ofList ((innermost type.length type.toList).filter fun c => !Text.isSpace c)

end Formwork.Declaration
