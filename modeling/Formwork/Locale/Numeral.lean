import Formwork.Locale.Basic

/-!
# Localised numerals

A plain numeral is an optional minus sign, digits, and optionally a point with more digits.
`Locale.formatNumber` writes it with the marks of a locale, `Locale.plainNumber` reads a localised
numeral back into a plain one. A grouping mark may stand after any digit of the whole part if a
digit or the decimal mark follows.
-/

namespace Formwork.Locale

/-- Whether a character groups digits; a locale that groups by no-break spaces also takes plain
and narrow blanks. -/
def isGrouping (l : Locale) (c : Char) : Bool :=
  c == l.groupingMark || (l.groupingMark == '\u00a0' && (c == ' ' || c == '\u202f'))

/-- Reads the characters of a localised numeral: `first` at its beginning, `point` after the
decimal mark, `digit` after any digit, `afterDigit` right after one. -/
def plainFrom (l : Locale) (first point digit afterDigit : Bool) :
    List Char → Option (List Char)
  | [] => if digit && (afterDigit || point) then some [] else none
  | c :: rest =>
    if c.isDigit then (plainFrom l false point true true rest).map (c :: ·)
    else if first && c == '-' then (plainFrom l false point digit false rest).map ('-' :: ·)
    else if first && c == '+' then plainFrom l false point digit false rest
    else if c == l.decimalMark && !point then
      (plainFrom l false true digit false rest).map ('.' :: ·)
    else if l.isGrouping c && !point && afterDigit then plainFrom l false point digit false rest
    else none

/-- The plain numeral of a localised one; any character out of place refuses the whole text. -/
def plainNumber (l : Locale) (text : List Char) : Option (List Char) :=
  plainFrom l true false false false (Text.trimChars text)

/-- Puts a mark before every third digit from the right; `left` counts what is left. -/
def groupThrees (m : Char) (left : Nat) : List Char → List Char
  | [] => []
  | [c] => [c]
  | c :: d :: rest =>
    if (left - 1) % 3 = 0 then c :: m :: groupThrees m (left - 1) (d :: rest)
    else c :: groupThrees m (left - 1) (d :: rest)

/-- The number of bytes of a text. -/
def byteCount (text : List Char) : Nat := (text.map Char.utf8Size).foldr (· + ·) 0

/-- The digits of a plain numeral without its sign, with the marks of the locale. -/
def formatMagnitude (l : Locale) (text : List Char) : List Char :=
  let whole := text.takeWhile (· != '.')
  let grouped := groupThrees l.groupingMark (byteCount whole) whole
  match text.dropWhile (· != '.') with
  | [] => grouped
  | _ :: fraction => grouped ++ l.decimalMark :: fraction

/-- A plain numeral with the marks of the locale. -/
def formatNumber (l : Locale) : List Char → List Char
  | '-' :: text => '-' :: formatMagnitude l text
  | text => formatMagnitude l text

end Formwork.Locale
