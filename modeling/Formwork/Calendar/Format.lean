import Formwork.Calendar.Date
import Formwork.Numeric.Integer
import Formwork.Text.Blank

/-!
# Written dates

A format is a list of parts: the year, the month and the day as numbers, the English name of the
month, blanks and single marks. `readDate` reads a whole text by a format.
-/

namespace Formwork.Calendar

/-- What a date format asks for at one place. -/
inductive DatePart where
  /-- Up to four digits, or any number of digits after a sign. -/
  | year
  /-- One or two digits. -/
  | month
  /-- One or two digits. -/
  | day
  /-- The English name of the month in any case, whole or cut to three letters. -/
  | monthName
  /-- Any run of white space, also none. -/
  | blank
  /-- The character itself. -/
  | mark (c : Char)
  deriving DecidableEq

/-- A date format. -/
abbrev DateFormat := List DatePart

/-- The fields of a date that have been read. -/
structure DateFields where
  year : Option Int := none
  month : Option Nat := none
  day : Option Nat := none

/-- The English names of the months, in lower case. -/
def monthNames : List String :=
  ["january", "february", "march", "april", "may", "june", "july", "august", "september",
    "october", "november", "december"]

/-- Takes a word in any case off the front. -/
def dropWord? (word text : List Char) : Option (List Char) :=
  if (text.take word.length).map Char.toLower = word then some (text.drop word.length) else none

/-- Reads the name of a month: its number and the rest. -/
def readMonthName (text : List Char) : Option (Nat × List Char) :=
  monthNames.zipIdx.findSome? fun (name, i) =>
    let rest := (dropWord? name.toList text).or (dropWord? (name.toList.take 3) text)
    rest.map fun rest => (i + 1, rest)

/-- Reads at most `width` digits, and at least one. -/
def readUpTo (width : Nat) (text : List Char) : Option (Nat × List Char) :=
  let digits := (text.take width).takeWhile Char.isDigit
  if digits.isEmpty then none
  else some (Nat.ofDigitChars 10 digits 0, text.drop digits.length)

/-- Reads a year: four digits at most, unless there is a sign. -/
def readYear : List Char → Option (Int × List Char)
  | '-' :: text => (readUpTo text.length text).map fun (n, rest) => (-(n : Int), rest)
  | '+' :: text => (readUpTo text.length text).map fun (n, rest) => ((n : Int), rest)
  | text => (readUpTo 4 text).map fun (n, rest) => ((n : Int), rest)

/-- Reads one part; white space may stand before a number. -/
def readPart (part : DatePart) (fields : DateFields) (text : List Char) :
    Option (DateFields × List Char) :=
  match part with
  | .year => (readYear (Text.trimLeft text)).map fun (n, rest) => ({ fields with year := n }, rest)
  | .month =>
    (readUpTo 2 (Text.trimLeft text)).map fun (n, rest) => ({ fields with month := n }, rest)
  | .day => (readUpTo 2 (Text.trimLeft text)).map fun (n, rest) => ({ fields with day := n }, rest)
  | .monthName => (readMonthName text).map fun (n, rest) => ({ fields with month := n }, rest)
  | .blank => some (fields, Text.trimLeft text)
  | .mark c =>
    match text with
    | d :: rest => if c = d then some (fields, rest) else none
    | [] => none

/-- Reads the parts one after the other up to the end of the text. -/
def readParts : DateFormat → DateFields → List Char → Option DateFields
  | [], fields, [] => some fields
  | [], _, _ :: _ => none
  | part :: format, fields, text =>
    match readPart part fields text with
    | some (fields, rest) => readParts format fields rest
    | none => none

/-- The date that a text writes in a format. -/
def readDate (format : DateFormat) (text : List Char) : Option Date :=
  match readParts format {} text with
  | some ⟨some year, some month, some day⟩ => Date.ofParts? year month day
  | _ => none

end Formwork.Calendar
