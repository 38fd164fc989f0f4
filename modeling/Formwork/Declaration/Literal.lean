import Formwork.Declaration.Identifier
import Formwork.Numeric.Decimal
import Formwork.Text.Unicode.Table

/-!
# Numbers in declarations

A number is written in decimal, hexadecimal, octal or binary notation, with underscores between its
digits and a suffix that names its type. `readNumeric` reads a number with parentheses and minus
signs around it.
-/

namespace Formwork.Declaration

open Numeric Text.Unicode

/-- A number as it is written. -/
inductive NumberLiteral where
  | integer (n : Nat)
  | decimal (x : Float)

/-- The number that is written, to 64 bits. -/
def NumberLiteral.toFloat : NumberLiteral → Float
  | integer n => floatOfInt n
  | decimal x => x

/-- Takes the underscores out of digits. -/
def ungrouped (digits : List Char) : List Char := digits.filter (· != '_')

/-- What follows the suffix of a number. -/
def dropSuffix (text : List Char) : List Char :=
  if text.head?.any startsName then text.dropWhile isIdentifierPart else text

/-- Whether a character is a digit of a base, or an underscore. -/
def isBaseDigit (base : Nat) (c : Char) : Bool :=
  c == '_' || (hexDigit? c).any fun d => d < base || (d < 10 && base < 10)

/-- Reads an integer in another base than ten, behind its mark. -/
def readBased (base : Nat) (text : List Char) : Option (NumberLiteral × List Char) :=
  let digits := text.takeWhile (isBaseDigit base)
  let values := (ungrouped digits).map fun c => (hexDigit? c).getD 0
  if values.isEmpty || values.any (base ≤ ·) then none
  else
    some (.integer (values.foldl (fun n d => n * base + d) 0),
      dropSuffix (text.drop digits.length))

/-- Reads a fraction with its point; the point of a range or of a call begins none. -/
def readFractionPart (text : List Char) : List Char × List Char :=
  match text with
  | '.' :: rest =>
    if rest.head?.any fun c => c == '.' || startsName c then ([], text)
    else
      let digits := rest.takeWhile fun c => c.isDigit || c == '_'
      ('.' :: ungrouped digits, rest.drop digits.length)
  | text => ([], text)

/-- Reads an exponent with its mark; a mark without digits begins none. -/
def readExponentPart (text : List Char) : List Char × List Char :=
  match text with
  | [] => ([], text)
  | c :: rest =>
    if c = 'e' ∨ c = 'E' then
      let sign := rest.takeWhile fun c => c == '+' || c == '-'
      let digits := (rest.drop sign.length).takeWhile fun c => c.isDigit || c == '_'
      if 1 < sign.length || (ungrouped digits).isEmpty then ([], text)
      else ('e' :: sign ++ ungrouped digits, rest.drop (sign.length + digits.length))
    else ([], text)

/-- Reads a number. -/
def readNumber (text : List Char) : Option (NumberLiteral × List Char) :=
  match text with
  | '0' :: 'x' :: rest => readBased 16 rest
  | '0' :: 'o' :: rest => readBased 8 rest
  | '0' :: 'b' :: rest => readBased 2 rest
  | text =>
    if !(text.head?.any Char.isDigit) then none
    else
      let whole := text.takeWhile fun c => c.isDigit || c == '_'
      let (fraction, rest) := readFractionPart (text.drop whole.length)
      let (exponent, rest) := readExponentPart rest
      let digits := ungrouped whole
      if fraction.isEmpty && exponent.isEmpty then
        (readDigits digits).map fun n => (.integer n, dropSuffix rest)
      else
        (readFloat (digits ++ fraction ++ exponent)).map fun x => (.decimal x, dropSuffix rest)

/-- Reads an integer with an optional minus sign: whether it has one, and its magnitude. -/
def readSignedInteger (text : List Char) : Option ((Bool × Nat) × List Char) :=
  let (negative, text) := match Text.trimLeft text with
    | '-' :: rest => (true, Text.trimLeft rest)
    | text => (false, text)
  match readNumber text with
  | some (.integer n, rest) => some ((negative, n), rest)
  | _ => none

/-- Reads a number with parentheses and minus signs around it. -/
def readNumericFrom : Nat → List Char → Option (Float × List Char)
  | 0, _ => none
  | fuel + 1, text =>
    match Text.trimLeft text with
    | '-' :: rest => (readNumericFrom fuel rest).map fun (x, rest) => (-x, rest)
    | '(' :: rest =>
      match readNumericFrom fuel rest with
      | some (x, rest) =>
        match Text.trimLeft rest with
        | ')' :: rest => some (x, rest)
        | _ => none
      | none => none
    | text => (readNumber text).map fun (n, rest) => (n.toFloat, rest)

/-- Reads a number with parentheses and minus signs around it: the number and what follows it. -/
def readNumeric (text : String) : Option (Float × List Char) :=
  (readNumericFrom (text.length + 1) text.toList).map fun (x, rest) => (x, Text.trimLeft rest)

end Formwork.Declaration
