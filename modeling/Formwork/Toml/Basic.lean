/-!
# TOML values

A TOML document is a table. `TomlValue` has its values, with the entries of every table in the order
of their names. A reader of a part of a document gives what it has read and the rest of the text.
-/

namespace Formwork

/-- A value of a TOML document. -/
inductive TomlValue where
  | text (s : String)
  | integer (n : Int)
  | float (x : Float)
  | bool (b : Bool)
  /-- A date, a time or both, in their usual form. -/
  | moment (text : String)
  | list (items : List TomlValue)
  | table (entries : List (String × TomlValue))

namespace Toml

/-- The entry of a name. -/
def entryOf {α : Type} (name : String) : List (String × α) → Option α
  | [] => none
  | (n, v) :: rest => if n = name then some v else entryOf name rest

/-- Puts an entry where its name belongs, in place of one with its name. -/
def putEntry {α : Type} (name : String) (v : α) : List (String × α) → List (String × α)
  | [] => [(name, v)]
  | (n, w) :: rest =>
    if name < n then (name, v) :: (n, w) :: rest
    else if n = name then (name, v) :: rest
    else (n, w) :: putEntry name v rest

/-- Whether a character is white space within a line. -/
def isGap (c : Char) : Bool := c == ' ' || c == '\t'

/-- Whether a character may stand in a comment or in a text of one line. -/
def isPlain (c : Char) : Bool := c == '\t' || (' ' ≤ c && c != '\x7f')

/-- What follows the white space of a line. -/
def skipGaps (text : List Char) : List Char := text.dropWhile isGap

/-- What follows white space, line ends and comments. -/
def skipLines (comment : Bool) : List Char → List Char
  | [] => []
  | '\n' :: rest | '\r' :: '\n' :: rest => skipLines false rest
  | c :: rest =>
    if comment then if isPlain c then skipLines true rest else c :: rest
    else if isGap c then skipLines false rest
    else if c = '#' then skipLines true rest
    else c :: rest

/-- What follows the present line, which may end in a comment. -/
def nextLine? (text : List Char) : Option (List Char) :=
  let text := skipGaps text
  let text := if text.head? = some '#' then text.dropWhile isPlain else text
  match text with
  | [] => some []
  | '\n' :: rest | '\r' :: '\n' :: rest => some rest
  | _ => none

end Toml

end Formwork
