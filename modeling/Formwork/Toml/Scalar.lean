import Formwork.Calendar.Date
import Formwork.Numeric.Binary
import Formwork.Text.Unicode.Table
import Formwork.Toml.Basic

/-!
# Single values in TOML

Truth values, numbers, dates and times. Each of them is a word without white space, except that a
blank may stand between a date and a time.
-/

namespace Formwork.Toml

open Numeric

/-! ## Numbers -/

/-- Takes the underscores out of a row of digits; each must stand between two digits. -/
def ungrouped? (isDigit : Char → Bool) : List Char → Option (List Char)
  | [] => none
  | [c] => if isDigit c then some [c] else none
  | c :: '_' :: rest => if isDigit c then (ungrouped? isDigit rest).map (c :: ·) else none
  | c :: rest => if isDigit c then (ungrouped? isDigit rest).map (c :: ·) else none

/-- The digits of a decimal number, which begins with a zero only if it is zero. -/
def wholeDigits? (text : List Char) : Option (List Char) :=
  if text.head? = some '0' ∧ text ≠ ['0'] then none else ungrouped? Char.isDigit text

/-- A number in another base than ten. -/
def basedInteger? (base : Nat) (text : List Char) : Option Int :=
  let isDigit (c : Char) := (Text.Unicode.hexDigit? c).any (· < base)
  (ungrouped? isDigit text).map fun digits =>
    digits.foldl (fun (n : Int) c => n * base + ((Text.Unicode.hexDigit? c).getD 0 : Nat)) 0

/-- The sign of a number, if it has one, and the rest. -/
def splitSign : List Char → List Char × List Char
  | '+' :: rest => (['+'], rest)
  | '-' :: rest => (['-'], rest)
  | text => ([], text)

/-- An integer of any size. -/
def plainInteger? : List Char → Option Int
  | '0' :: 'x' :: digits => basedInteger? 16 digits
  | '0' :: 'o' :: digits => basedInteger? 8 digits
  | '0' :: 'b' :: digits => basedInteger? 2 digits
  | text =>
    let (sign, magnitude) := splitSign text
    ((wholeDigits? magnitude).bind readDigits).map fun n =>
      if sign = ['-'] then -(n : Int) else n

/-- An integer of 64 bits. -/
def integer? (text : List Char) : Option Int := (plainInteger? text).filter IntegerType.int64.holds

/-- The exponent of a number with its mark. -/
def exponentText? : List Char → Option (List Char)
  | [] => some []
  | _ :: rest =>
    let (sign, digits) := splitSign rest
    (ungrouped? Char.isDigit digits).map fun digits => 'e' :: sign ++ digits

/-- The fraction of a number with its point. -/
def fractionText? : List Char → Option (List Char)
  | [] => some []
  | _ :: digits => (ungrouped? Char.isDigit digits).map ('.' :: ·)

/-- A number with a fraction, an exponent or both, which is not too great; or infinity, or no
number. -/
def float? (text : List Char) : Option Float :=
  let (sign, magnitude) := splitSign text
  if magnitude = ['i', 'n', 'f'] ∨ magnitude = ['n', 'a', 'n'] then readFloat text
  else
    let mantissa := magnitude.takeWhile fun c => c != 'e' && c != 'E'
    let whole := mantissa.takeWhile (· != '.')
    if whole = magnitude then none
    else do
      let digits ← wholeDigits? whole
      let fraction ← fractionText? (mantissa.drop whole.length)
      let exponent ← exponentText? (magnitude.drop mantissa.length)
      (readFloat (sign ++ digits ++ fraction ++ exponent)).filter fun x => x != 1 / 0

/-! ## Dates and times -/

/-- Reads a number of two digits up to a bound. -/
def readTwoDigits (greatest : Nat) : List Char → Option (Nat × List Char)
  | a :: b :: rest =>
    ((readDigits [a, b]).filter (· ≤ greatest)).map fun n => (n, rest)
  | _ => none

/-- Goes on behind a mark. -/
def expect (mark : Char) : List Char → Option (List Char)
  | c :: rest => if c = mark then some rest else none
  | [] => none

/-- Reads a date. -/
def readDate (text : List Char) : Option (Calendar.Date × List Char) := do
  let year ← if 4 ≤ text.length then readDigits (text.take 4) else none
  let rest ← expect '-' (text.drop 4)
  let (month, rest) ← readTwoDigits 12 rest
  let rest ← expect '-' rest
  let (day, rest) ← readTwoDigits 31 rest
  return (← Calendar.Date.ofParts? year month day, rest)

/-- Digits without the zeros at their end. -/
def withoutLastZeros (digits : List Char) : List Char :=
  (digits.reverse.dropWhile (· == '0')).reverse

/-- Reads the fraction of a second: nine digits count, and zeros at the end do not show. -/
def readFraction : List Char → Option (String × List Char)
  | '.' :: rest =>
    let digits := rest.takeWhile Char.isDigit
    let shown := withoutLastZeros (digits.take 9)
    if digits.isEmpty then none
    else
      some (if shown.isEmpty then "" else "." ++ String.ofList shown, rest.drop digits.length)
  | text => some ("", text)

/-- Reads a time of day, as it is written again. -/
def readTime (text : List Char) : Option (String × List Char) := do
  let (hour, rest) ← readTwoDigits 23 text
  let (minute, rest) ← readTwoDigits 59 (← expect ':' rest)
  let (second, rest) ← readTwoDigits 60 (← expect ':' rest)
  let (fraction, rest) ← readFraction rest
  let two := Calendar.Date.padded 2
  return (two hour ++ ":" ++ two minute ++ ":" ++ two second ++ fraction, rest)

/-- Reads the distance to the time of Greenwich, if there is one. -/
def readOffset : List Char → Option (String × List Char)
  | [] => some ("", [])
  | c :: rest =>
    if c = 'Z' ∨ c = 'z' then some ("Z", rest)
    else if c = '+' ∨ c = '-' then do
      let (hours, rest) ← readTwoDigits 23 rest
      let (minutes, rest) ← readTwoDigits 59 (← expect ':' rest)
      let sign := if c = '-' ∧ 0 < hours + minutes then "-" else "+"
      let two := Calendar.Date.padded 2
      return (sign ++ two hours ++ ":" ++ two minutes, rest)
    else none

/-- A date, maybe with a time and an offset, as it is written again. -/
def dateTime? (text : List Char) : Option String := do
  let (date, rest) ← readDate text
  match rest with
  | [] => return date.text
  | c :: rest =>
    if c = 'T' ∨ c = 't' ∨ c = ' ' then
      let (time, rest) ← readTime rest
      let (offset, rest) ← readOffset rest
      if rest.isEmpty then return date.text ++ "T" ++ time ++ offset else none
    else none

/-- A time of day, as it is written again. -/
def time? (text : List Char) : Option String :=
  match readTime text with
  | some (time, []) => some time
  | _ => none

/-! ## Words -/

/-- Whether a character belongs to a word. -/
def isWordChar (c : Char) : Bool :=
  !isGap c && c != ',' && c != ']' && c != '\x7d' && c != '#' && c != '\n' && c != '\r'

/-- The value of a word. -/
def wordValue? (word : List Char) : Option TomlValue :=
  if word = ['t', 'r', 'u', 'e'] then some (.bool true)
  else if word = ['f', 'a', 'l', 's', 'e'] then some (.bool false)
  else
    ((integer? word).map .integer).or <| ((float? word).map .float).or <|
      ((dateTime? word).or (time? word)).map .moment

/-- Reads a single value that is no text. A word that follows a date behind one blank belongs to
it. -/
def readWord (text : List Char) : Option (TomlValue × List Char) :=
  let word := text.takeWhile isWordChar
  let rest := text.drop word.length
  let next := (rest.drop 1).takeWhile isWordChar
  if (dateTime? word).isSome ∧ rest.head? = some ' ' ∧ ¬ next.isEmpty then
    (dateTime? (word ++ ' ' :: next)).map fun s => (.moment s, rest.drop (next.length + 1))
  else (wordValue? word).map (·, rest)

end Formwork.Toml
