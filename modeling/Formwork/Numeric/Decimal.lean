import Formwork.Numeric.Binary

/-!
# Decimal numbers of any size

A `Decimal` is an integer over a power of ten. It keeps the places it was written with: `1.50` is
not written as `1.5`.
-/

namespace Formwork.Numeric

/-- The number `unscaled / 10 ^ scale`. -/
structure Decimal where
  unscaled : Int
  scale : Nat
  deriving DecidableEq

namespace Decimal

/-- Zeros after the point up to which a fraction is written out. -/
def maxLeadingZeros : Nat := 5

/-- The number as text: zero is `0`, a number with more than five zeros after `0.` stands with an
exponent, and every other one with all its places. -/
def text (d : Decimal) : String :=
  if d.unscaled = 0 then "0"
  else
    let sign := if d.unscaled < 0 then "-" else ""
    let digits := Nat.toDigits 10 d.unscaled.natAbs
    if digits.length + maxLeadingZeros < d.scale then
      let fraction := if digits.length = 1 then [] else '.' :: digits.drop 1
      sign ++ String.ofList (digits.take 1 ++ fraction) ++ "E-" ++
        toString (d.scale + 1 - digits.length)
    else sign ++ (Scientific.mk d.unscaled.natAbs (-d.scale)).text

/-- The nearest number of 64 bits. -/
def toFloat (d : Decimal) : Float :=
  floatOfDecimal (d.unscaled < 0) d.unscaled.natAbs d.scale

/-- Reads digits around an optional point, with an optional minus sign and at least one digit. -/
def read (text : List Char) : Option Decimal :=
  let (negative, magnitude) : Bool × List Char := match text with
    | '-' :: rest => (true, rest)
    | rest => (false, rest)
  let whole := magnitude.takeWhile (· != '.')
  let fraction := (magnitude.dropWhile (· != '.')).drop 1
  (readDigits (whole ++ fraction)).map fun n =>
    ⟨if negative then -(n : Int) else n, fraction.length⟩

end Decimal

/-- The nearest number of 64 bits to an integer. -/
def floatOfInt (n : Int) : Float := floatOfDecimal (n < 0) n.natAbs 0

end Formwork.Numeric
