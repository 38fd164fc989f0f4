import Formwork.Calendar.Date
import Formwork.Numeric.Decimal

/-!
# Single values

`ScalarType` lists the types of values that a submitted text is converted to, `Scalar` the values.
Every scalar knows its type.
-/

namespace Formwork

open Numeric Calendar

/-- A type of named constants. -/
structure Enumeration where
  name : String
  constants : List String
  deriving DecidableEq

/-- The types of single values. -/
inductive ScalarType where
  | bool
  | integer (k : IntegerType)
  /-- Binary numbers of 32 bits. -/
  | single
  /-- Binary numbers of 64 bits. -/
  | double
  | bigInteger
  | decimal
  | date
  | text
  | character
  | enumeration (e : Enumeration)
  /-- A type that only an application knows. -/
  | foreign (name : String)
  deriving DecidableEq

namespace ScalarType

/-- The name of the type in messages. -/
def name : ScalarType → String
  | .bool => "bool"
  | .integer k => k.name
  | .single => "f32"
  | .double => "f64"
  | .bigInteger => "BigInt"
  | .decimal => "BigDecimal"
  | .date => "NaiveDate"
  | .text => "String"
  | .character => "char"
  | .enumeration e => e.name
  | .foreign name => name

/-- The constants of an enumeration. -/
def constants? : ScalarType → Option (List String)
  | .enumeration e => some e.constants
  | _ => none

end ScalarType

/-- A single value. A binary number of 32 bits is kept as the equal one of 64 bits. -/
inductive Scalar where
  | bool (b : Bool)
  | integer (k : IntegerType) (n : Int)
  | single (x : Float)
  | double (x : Float)
  | bigInteger (n : Int)
  | decimal (d : Decimal)
  | date (d : Date)
  | text (s : String)
  | character (c : Char)
  | enumeration (e : Enumeration) (ordinal : Nat)

namespace Scalar

/-- The type of a value. -/
def type : Scalar → ScalarType
  | .bool _ => .bool
  | .integer k _ => .integer k
  | .single _ => .single
  | .double _ => .double
  | .bigInteger _ => .bigInteger
  | .decimal _ => .decimal
  | .date _ => .date
  | .text _ => .text
  | .character _ => .character
  | .enumeration e _ => .enumeration e

/-- The value as text. -/
def display : Scalar → String
  | .bool b => if b then "true" else "false"
  | .integer _ n | .bigInteger n => integerText n
  | .single x | .double x => floatText x
  | .decimal d => d.text
  | .date d => d.text
  | .text s => s
  | .character c => String.ofList [c]
  | .enumeration e i => e.constants.getD i ""

/-- The value as a number of 64 bits, for the types that are numbers. -/
def number? : Scalar → Option Float
  | .integer _ n => some (floatOfInt n)
  | .single x => some x
  | .double x => some x
  | .bigInteger n => some (floatOfInt n)
  | .decimal d => some d.toFloat
  | _ => none

end Scalar

/-- The value that a property of the type starts with: nothing, zero, the epoch, or the first
constant. -/
def ScalarType.initial? : ScalarType → Option Scalar
  | .bool => some (.bool false)
  | .integer k => some (.integer k 0)
  | .single => some (.single 0)
  | .double => some (.double 0)
  | .bigInteger => some (.bigInteger 0)
  | .decimal => some (.decimal ⟨0, 0⟩)
  | .date => some (.date Date.epoch)
  | .text => some (.text "")
  | .character => some (.character '\x00')
  | .enumeration e => some (.enumeration e 0)
  | .foreign _ => none

end Formwork
