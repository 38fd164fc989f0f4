import Formwork.Calendar.Format
import Formwork.Text.Blank
import Formwork.Text.Unicode.Case

/-!
# Locales

A locale is a language with an optional country. It fixes the marks inside numbers and the order of
the fields of a numeric date.
-/

namespace Formwork

/-- The order of the fields of a numeric date. -/
inductive DateOrder where
  | monthDayYear | dayMonthYear | yearMonthDay
  deriving DecidableEq

/-- A language, in lower case, and a country, in upper case. -/
structure Locale where
  language : String
  country : Option String
  deriving DecidableEq

namespace Locale

/-- The locale of a language and a country in any case. -/
def ofParts (language : String) (country : Option String) : Locale :=
  ⟨Text.toLower language, country.map Text.toUpper⟩

/-- The marks between the parts of a tag. -/
def isSeparator (c : Char) : Bool := c == '_' || c == '-'

/-- Reads a tag such as `en_US`, `de-DE` or `fr`: English where the language is missing, and what
follows the country is passed over. -/
def ofTag (tag : String) : Locale :=
  match (Text.trimChars tag.toList).splitOnP isSeparator with
  | [] => ofParts "en" none
  | language :: rest =>
    let language := if language.isEmpty then "en" else String.ofList language
    let country := rest.head?.filter fun c => !c.isEmpty
    ofParts language (country.map String.ofList)

/-- American English. -/
def us : Locale := ⟨"en", some "US"⟩

instance : Inhabited Locale := ⟨us⟩

/-- The locale as a tag. -/
def tag (l : Locale) : String :=
  match l.country with
  | some country => l.language ++ "_" ++ country
  | none => l.language

/-- German as written in Switzerland. -/
def isSwissGerman (l : Locale) : Bool := l.language == "de" && l.country == some "CH"

/-- Languages that group the digits of a number by points. -/
def pointGrouping : List String := ["de", "es", "it", "nl", "pt", "da", "id", "tr", "el", "ro"]

/-- Languages that group the digits of a number by blanks. -/
def blankGrouping : List String :=
  ["fr", "ru", "pl", "cs", "sv", "fi", "nb", "no", "uk", "sk", "hu"]

/-- The mark before the fraction of a number. -/
def decimalMark (l : Locale) : Char :=
  if l.isSwissGerman then '.'
  else if pointGrouping.contains l.language || blankGrouping.contains l.language then ','
  else '.'

/-- The mark between groups of three digits. -/
def groupingMark (l : Locale) : Char :=
  if l.isSwissGerman then '\''
  else if pointGrouping.contains l.language then '.'
  else if blankGrouping.contains l.language then '\u00a0'
  else ','

/-- The order of the fields of a numeric date. -/
def dateOrder (l : Locale) : DateOrder :=
  if l.language == "en" && (l.country == none || l.country == some "US") then .monthDayYear
  else if ["zh", "ja", "ko", "hu", "lt"].contains l.language then .yearMonthDay
  else .dayMonthYear

open Calendar in
/-- A numeric date format with a mark between its fields. -/
def numericFormat (order : DateOrder) (m : Char) : DateFormat :=
  match order with
  | .monthDayYear => [.month, .mark m, .day, .mark m, .year]
  | .dayMonthYear => [.day, .mark m, .month, .mark m, .year]
  | .yearMonthDay => [.year, .mark m, .month, .mark m, .day]

/-- The date formats of a locale in the order in which they are tried: the international one, the
local numeric ones, year first with slashes, and the English ones with the month's name. -/
def dateFormats (l : Locale) : List Calendar.DateFormat :=
  let localMarks := match l.dateOrder with
    | .monthDayYear => ['/', '-']
    | .dayMonthYear => ['.', '/', '-']
    | .yearMonthDay => ['.']
  [numericFormat .yearMonthDay '-'] ++ localMarks.map (numericFormat l.dateOrder) ++
    [numericFormat .yearMonthDay '/',
      [.monthName, .blank, .day, .mark ',', .blank, .year],
      [.day, .blank, .monthName, .blank, .year]]

end Locale

end Formwork
