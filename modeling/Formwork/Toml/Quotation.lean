import Formwork.Text.Unicode.Table
import Formwork.Toml.Basic

/-!
# Texts in TOML

A text stands between double quotes, with escapes, or between single quotes, as it is. One quote on
each side makes a text of one line, three make a block of lines.
-/

namespace Formwork.Toml

/-- Reads the character whose code point is written with a number of hexadecimal digits. -/
def readCodePoint (count : Nat) (text : List Char) : Option (Char × List Char) :=
  if text.length < count then none
  else (Text.Unicode.hexChar? (text.take count)).map fun c => (c, text.drop count)

/-- Reads an escape behind its backslash. -/
def readEscape : List Char → Option (Char × List Char)
  | 'b' :: rest => some ('\x08', rest)
  | 't' :: rest => some ('\t', rest)
  | 'n' :: rest => some ('\n', rest)
  | 'f' :: rest => some ('\x0c', rest)
  | 'r' :: rest => some ('\r', rest)
  | '"' :: rest => some ('"', rest)
  | '\\' :: rest => some ('\\', rest)
  | 'u' :: rest => readCodePoint 4 rest
  | 'U' :: rest => readCodePoint 8 rest
  | _ => none

/-- The quote around a text, which decides whether the text has escapes. -/
inductive QuoteMark where
  | double
  | single
  deriving DecidableEq

/-- The character of a quote. -/
def QuoteMark.char : QuoteMark → Char
  | double => '"'
  | single => '\''

/-- Puts characters in front of what was read. -/
def prepend (front : List Char) (r : Option (List Char × List Char)) :
    Option (List Char × List Char) :=
  r.map fun (s, rest) => (front ++ s, rest)

/-- Reads a text of one line up to its closing quote. -/
def readLine (q : QuoteMark) : Nat → List Char → Option (List Char × List Char)
  | 0, _ | _ + 1, [] => none
  | fuel + 1, c :: rest =>
    if c = q.char then some ([], rest)
    else if c = '\\' ∧ q = .double then
      (readEscape rest).bind fun (e, rest) => prepend [e] (readLine q fuel rest)
    else if isPlain c then prepend [c] (readLine q fuel rest)
    else none

/-- What follows a line end that is escaped: a backslash at the end of a line takes all white space
behind it away. -/
def joinedLine? (text : List Char) : Option (List Char) :=
  match skipGaps text with
  | '\n' :: rest | '\r' :: '\n' :: rest =>
    some (rest.dropWhile fun c => isGap c || c == '\n' || c == '\r')
  | _ => none

/-- Reads a block up to its three closing quotes, in front of which it may end in one or two more
quotes. -/
def readBlock (q : QuoteMark) : Nat → List Char → Option (List Char × List Char)
  | 0, _ | _ + 1, [] => none
  | fuel + 1, c :: rest =>
    if c = q.char then
      let marks := (c :: rest).takeWhile (· == c)
      let rest := (c :: rest).drop marks.length
      if marks.length < 3 then prepend marks (readBlock q fuel rest)
      else if marks.length ≤ 5 then some (marks.drop 3, rest)
      else none
    else if c = '\\' ∧ q = .double then
      match joinedLine? rest with
      | some rest => readBlock q fuel rest
      | none => (readEscape rest).bind fun (e, rest) => prepend [e] (readBlock q fuel rest)
    else if c = '\r' ∧ rest.head? = some '\n' then readBlock q fuel rest
    else if isPlain c ∨ c = '\n' then prepend [c] (readBlock q fuel rest)
    else none

/-- A block begins behind the line end that follows its quotes. -/
def skipFirstLineEnd : List Char → List Char
  | '\n' :: rest | '\r' :: '\n' :: rest => rest
  | text => text

/-- The quote that a character is. -/
def QuoteMark.ofChar? (c : Char) : Option QuoteMark :=
  if c = '"' then some double else if c = '\'' then some single else none

/-- Reads a text of one line with its quotes. -/
def readLineText (q : QuoteMark) (text : List Char) : Option (String × List Char) :=
  (readLine q text.length (text.drop 1)).map fun (s, rest) => (String.ofList s, rest)

/-- Reads a text with its quotes. -/
def readText (q : QuoteMark) (text : List Char) : Option (String × List Char) :=
  if text.take 3 = List.replicate 3 q.char then
    (readBlock q text.length (skipFirstLineEnd (text.drop 3))).map fun (s, rest) =>
      (String.ofList s, rest)
  else readLineText q text

end Formwork.Toml
