import Formwork.Conversion.Registry
import Formwork.Locale.Numeral

/-!
# The built-in converters

Numbers are read as localised numerals; an integer may have a fraction of zeros. A number that is
out of bounds for its type is told apart from a text that is no number. Integers of fixed width are
read as integers of 128 bits first.
-/

namespace Formwork

open Numeric

/-- The answer of a converter that found a value. -/
def ConversionResult.found (s : Scalar) : ConversionResult := { value := some (.scalar s) }

/-- The answer of a converter that found an error. -/
def ConversionResult.refused (e : FieldError) : ConversionResult := { errors := [e] }

/-- The error of a text that is no number. -/
def invalidNumber : FieldError := .conversion "converter.number.invalidNumber"

/-- The error of a number outside its bounds. -/
def outOfRange (least greatest : String) : FieldError :=
  ((FieldError.conversion "converter.number.outOfRange").addParameter least).addParameter greatest

/-- The error of a text that is no date. -/
def invalidDate : FieldError := .conversion "converter.date.invalidDate"

/-- The digits of a plain numeral before a fraction of zeros; any other fraction is refused, and so
is one without digits before it. -/
def wholeDigits? (plain : List Char) : Option (List Char) :=
  let whole := plain.takeWhile (· != '.')
  match plain.dropWhile (· != '.') with
  | [] => some whole
  | _ :: fraction =>
    if fraction.all (· == '0') && !whole.isEmpty && whole != ['-'] then some whole else none

/-- The integer of any size that a localised numeral writes. -/
def readLocalInteger (l : Locale) (text : String) : Option Int :=
  ((l.plainNumber text.toList).bind wholeDigits?).bind readSigned

/-- Why a text gives no integer of 128 bits. -/
inductive IntegerFault where
  /-- The text is no integer. -/
  | invalid
  /-- The digits could not be read. -/
  | tooWide

/-- The integer of 128 bits that a localised numeral writes. Digits that cannot be read as one are
taken to be too many. -/
def readLocalWide (l : Locale) (text : String) : Except IntegerFault Int :=
  match (l.plainNumber text.toList).bind wholeDigits? with
  | none => .error .invalid
  | some digits =>
    match readWide digits with
    | none => .error .tooWide
    | some n => .ok n

/-- The error of a number that is none of an integer type. -/
def outOfType (k : IntegerType) : FieldError :=
  outOfRange (integerText k.least) (integerText k.greatest)

/-- Converts to an integer type of fixed width. -/
def integerConverter (k : IntegerType) : Converter := fun l text =>
  match readLocalWide l text with
  | .error .invalid => .refused invalidNumber
  | .error .tooWide => .refused (outOfType k)
  | .ok n => if k.holds n then .found (.integer k n) else .refused (outOfType k)

/-- Converts to an integer of any size. -/
def bigIntegerConverter : Converter := fun l text =>
  match readLocalInteger l text with
  | none => .refused invalidNumber
  | some n => .found (.bigInteger n)

/-- The finite number of 64 bits that a localised numeral writes. -/
def readLocalFloat (l : Locale) (text : String) : Option Float :=
  ((l.plainNumber text.toList).bind readFloat).filter Float.isFinite

/-- Converts to a number of 64 bits. -/
def doubleConverter : Converter := fun l text =>
  match readLocalFloat l text with
  | none => .refused invalidNumber
  | some x => .found (.double x)

/-- The greatest number of 32 bits. -/
def greatestSingle : Float :=
  Float.ofScientific Dyadic.largestSingle.mantissa false 0 *
    Float.ofScientific (Nat.pow 2 Dyadic.largestSingle.exponent.toNat) false 0

/-- Converts to a number of 32 bits. -/
def singleConverter : Converter := fun l text =>
  match readLocalFloat l text with
  | none => .refused invalidNumber
  | some x =>
    if greatestSingle < x.abs then
      let bound := Dyadic.largestSingle.shortest.text
      .refused (outOfRange ("-" ++ bound) bound)
    else .found (.single (roundSingle x))

/-- Converts to a decimal number of any size. -/
def decimalConverter : Converter := fun l text =>
  match (l.plainNumber text.toList).bind Decimal.read with
  | none => .refused invalidNumber
  | some d => .found (.decimal d)

/-- The words for yes. -/
def trueWords : List String := ["true", "t", "yes", "y", "on", "1"]

/-- Converts a word for yes in any case; every other text means no. -/
def boolConverter : Converter := fun _ text =>
  .found (.bool (trueWords.contains (Text.toLower (Text.trim text))))

/-- Converts to a date by the first format of the locale that fits. -/
def dateConverter : Converter := fun l text =>
  let trimmed := Text.trimChars text.toList
  match l.dateFormats.findSome? fun f => Calendar.readDate f trimmed with
  | none => .refused invalidDate
  | some d => .found (.date d)

/-- Takes the text as it is. -/
def textConverter : Converter := fun _ text => .found (.text text)

/-- Takes the first character; an empty text has neither a value nor an error. -/
def characterConverter : Converter := fun _ text =>
  match text.toList with
  | [] => {}
  | c :: _ => .found (.character c)

/-- A converter for every type that is not an application's own. -/
def ConverterRegistry.builtIn : ConverterRegistry :=
  let integers : List IntegerType :=
    [.int8, .int16, .int32, .int64, .nat8, .nat16, .nat32, .nat64, .size]
  ⟨[(.bool, boolConverter)] ++ integers.map (fun k => (.integer k, integerConverter k)) ++
    [(.single, singleConverter), (.double, doubleConverter), (.bigInteger, bigIntegerConverter),
      (.decimal, decimalConverter), (.date, dateConverter), (.text, textConverter),
      (.character, characterConverter)]⟩

end Formwork
