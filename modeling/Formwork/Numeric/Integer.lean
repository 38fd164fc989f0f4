/-!
# Integers as text

`IntegerType` lists the integer types of fixed width with their bounds. `readInteger` reads a
decimal integer with an optional sign; a type without negative values takes no minus sign at all,
and a number outside the bounds is refused. `readWide` reads an integer of 128 bits, which has room
for those of all the types.
-/

namespace Formwork.Numeric

/-- The integer types of fixed width; `size` counts elements and has 64 bits. -/
inductive IntegerType where
  | int8 | int16 | int32 | int64 | nat8 | nat16 | nat32 | nat64 | size
  deriving DecidableEq

namespace IntegerType

/-- The width in bits. -/
def bits : IntegerType → Nat
  | .int8 | .nat8 => 8
  | .int16 | .nat16 => 16
  | .int32 | .nat32 => 32
  | .int64 | .nat64 | .size => 64

/-- Whether the type has negative values. -/
def signed (k : IntegerType) : Bool := k matches .int8 | .int16 | .int32 | .int64

/-- The least value. -/
def least (k : IntegerType) : Int := if k.signed then -(Nat.pow 2 (k.bits - 1) : Nat) else 0

/-- The greatest value. -/
def greatest (k : IntegerType) : Int :=
  (Nat.pow 2 (if k.signed then k.bits - 1 else k.bits) : Nat) - 1

/-- The name of the type in messages. -/
def name : IntegerType → String
  | .int8 => "i8"
  | .int16 => "i16"
  | .int32 => "i32"
  | .int64 => "i64"
  | .nat8 => "u8"
  | .nat16 => "u16"
  | .nat32 => "u32"
  | .nat64 => "u64"
  | .size => "usize"

/-- Whether a number is a value of the type. -/
def holds (k : IntegerType) (n : Int) : Bool := k.least ≤ n && n ≤ k.greatest

end IntegerType

/-- The number that a non-empty row of digits writes. -/
def readDigits (text : List Char) : Option Nat :=
  if text.isEmpty || !text.all Char.isDigit then none else some (Nat.ofDigitChars 10 text 0)

/-- The integer that digits with an optional minus sign write. -/
def readSigned : List Char → Option Int
  | '-' :: digits => (readDigits digits).map fun n => -(n : Int)
  | digits => (readDigits digits).map fun n => (n : Int)

/-- Reads a number of an integer type. -/
def readInteger (k : IntegerType) (text : List Char) : Option Int :=
  let number : Option Int :=
    match text with
    | '+' :: digits => (readDigits digits).map fun n => (n : Int)
    | '-' :: digits => if k.signed then (readDigits digits).map fun n => -(n : Int) else none
    | digits => (readDigits digits).map fun n => (n : Int)
  number.filter k.holds

/-- Whether a number has 128 bits with its sign. -/
def fitsWide (n : Int) : Bool := -(Nat.pow 2 127 : Nat) ≤ n && n ≤ (Nat.pow 2 127 : Nat) - 1

/-- Reads an integer of 128 bits. -/
def readWide (text : List Char) : Option Int :=
  let number : Option Int :=
    match text with
    | '+' :: digits => (readDigits digits).map fun n => (n : Int)
    | text => readSigned text
  number.filter fitsWide

/-- An integer in decimal. -/
def integerText (n : Int) : String := toString n

end Formwork.Numeric
