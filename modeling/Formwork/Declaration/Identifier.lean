import Formwork.Text.Blank
import Formwork.Text.Naming
import Formwork.Text.Unicode.Category

/-!
# Identifiers in declarations

The name of a field is an identifier; one that begins with `r#` may be a keyword.
-/

namespace Formwork.Declaration

open Text.Unicode

/-- Whether a character can begin an identifier, or be one on its own. -/
def startsName (c : Char) : Bool := c == '_' || isIdentifierStart c

/-- The words that are no identifiers. -/
def keywords : List String :=
  ["_", "abstract", "as", "async", "await", "become", "box", "break", "const", "continue", "crate",
    "do", "dyn", "else", "enum", "extern", "false", "final", "fn", "for", "if", "impl", "in", "let",
    "loop", "macro", "match", "mod", "move", "mut", "override", "priv", "pub", "ref", "return",
    "Self", "self", "static", "struct", "super", "trait", "true", "try", "type", "typeof", "unsafe",
    "unsized", "use", "virtual", "where", "while", "yield"]

/-- The words that are no identifiers behind `r#` either. -/
def reservedWords : List String := ["_", "super", "self", "Self", "crate"]

/-- The name of an identifier without `r#`. -/
def bareName (name : List Char) : List Char :=
  match name with
  | 'r' :: '#' :: rest => rest
  | name => name

/-- Whether a text is made like an identifier. -/
def isName : List Char → Bool
  | [] => false
  | c :: rest => startsName c && rest.all isIdentifierPart

/-- Whether a text is an identifier. -/
def isIdentifier (text : List Char) : Bool :=
  let bare := bareName text
  let forbidden := if bare = text then keywords else reservedWords
  isName bare && !forbidden.contains (String.ofList bare)

/-- The property of a field. -/
def propertyName (field : String) : String :=
  Text.camelCase (String.ofList (bareName field.toList))

/-- The property of a field whose name is given as text, if the text is an identifier. -/
def propertyOf? (text : String) : Option String :=
  let name := Text.trimChars text.toList
  if isIdentifier name then some (propertyName (String.ofList name)) else none

end Formwork.Declaration
