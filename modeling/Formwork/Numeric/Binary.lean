import Formwork.Numeric.Integer

/-!
# Floating-point numbers as text

A finite number of the binary formats is `mantissa · 2 ^ exponent`. `shortest` finds its shortest
decimal: for one digit, two digits and so on it looks at the two neighbours of the number on the
decimal grid and takes the first grid with a neighbour that reads back, the nearer of two, the
upper one of two equally near. `floatText` writes that decimal without an exponent.
-/

namespace Formwork.Numeric

/-- A positive binary number with the size of the gap below it. -/
structure Dyadic where
  mantissa : Nat
  exponent : Int
  /-- The gap below is half the gap above. -/
  halfGapBelow : Bool
  deriving DecidableEq

/-- The first number of 53 binary digits. -/
def hiddenBit : Nat := 0x10000000000000

/-- The magnitude of a finite number of 64 bits. -/
def Dyadic.ofFloat (x : Float) : Dyadic :=
  let bits := x.toBits.toNat
  let fraction : Nat := bits % hiddenBit
  let biased : Nat := bits / hiddenBit % 0x800
  if biased = 0 then ⟨fraction, -1074, false⟩
  else ⟨fraction + hiddenBit, (biased : Int) - 1075, fraction = 0 && biased != 1⟩

/-- The greatest finite number of 32 bits. -/
def Dyadic.largestSingle : Dyadic := ⟨0xffffff, 104, false⟩

/-- A decimal `digits · 10 ^ exponent`. -/
structure Scientific where
  digits : Nat
  exponent : Int
  deriving DecidableEq

/-- The interval of numbers that round to a dyadic, its ends included iff `closed`: all four over
the denominator `den`. -/
structure Rounding where
  low : Nat
  value : Nat
  high : Nat
  den : Nat
  closed : Bool

/-- The rounding interval of a dyadic. -/
def Dyadic.rounding (d : Dyadic) : Rounding :=
  let scale := Nat.pow 2 (d.exponent - 2).toNat
  { low := (4 * d.mantissa - if d.halfGapBelow then 1 else 2) * scale
    value := 4 * d.mantissa * scale
    high := (4 * d.mantissa + 2) * scale
    den := Nat.pow 2 (2 - d.exponent).toNat
    closed := d.mantissa % 2 = 0 }

/-- The interval with all its numbers times `10 ^ k`. -/
def Rounding.timesTen (r : Rounding) (k : Int) : Rounding :=
  let up := Nat.pow 10 k.toNat
  { r with
    low := r.low * up, value := r.value * up, high := r.high * up
    den := r.den * Nat.pow 10 (-k).toNat }

/-- Whether the whole number `n` lies in the interval. -/
def Rounding.has (r : Rounding) (n : Nat) : Bool :=
  let x := n * r.den
  if r.closed then r.low ≤ x && x ≤ r.high else r.low < x && x < r.high

/-- The whole number next to the value that lies in the interval, if one of the two neighbours
does: the nearer one, and the upper one of two equally near. -/
def Rounding.neighbour (r : Rounding) : Option Nat :=
  let n := r.value / r.den
  match r.has n, r.has (n + 1) with
  | true, true => if 2 * (r.value - n * r.den) < r.den then some n else some (n + 1)
  | true, false => some n
  | false, true => some (n + 1)
  | false, false => none

/-- Tries the grids of `count`, `count + 1`, … digits of a number below `10 ^ scale`. -/
def shortestFrom (r : Rounding) (scale : Int) (count : Nat) : Nat → Scientific
  | 0 => ⟨0, 0⟩
  | fuel + 1 =>
    let exponent := scale - count
    match (r.timesTen (-exponent)).neighbour with
    | some n => if n = Nat.pow 10 count then ⟨1, scale⟩ else ⟨n, exponent⟩
    | none => shortestFrom r scale (count + 1) fuel

/-- The least `k` with `n < 10 ^ k`. -/
def digitCount (n : Nat) : Nat := if n = 0 then 0 else (Nat.toDigits 10 n).length

/-- The least scale with the value below `10 ^ scale`. -/
def Rounding.scale (r : Rounding) : Int :=
  if r.den ≤ r.value then digitCount (r.value / r.den)
  else
    -- `10 ^ k ≤ den / value` says that the number is at most `10 ^ -k`
    let k := digitCount (r.den / r.value) - 1
    if r.value * Nat.pow 10 k = r.den then 1 - k else -k

/-- The shortest decimal that rounds to the number. -/
def Dyadic.shortest (d : Dyadic) : Scientific :=
  shortestFrom d.rounding d.rounding.scale 1 20

/-- A decimal in positional notation, without an exponent. -/
def Scientific.text (s : Scientific) : String :=
  let digits := Nat.toDigits 10 s.digits
  if 0 ≤ s.exponent then String.ofList (digits ++ List.replicate s.exponent.toNat '0')
  else
    let places := (-s.exponent).toNat
    let padded := List.replicate (places + 1 - digits.length) '0' ++ digits
    let whole := padded.length - places
    String.ofList (padded.take whole ++ '.' :: padded.drop whole)

/-- The sign bit. -/
def isNegative (x : Float) : Bool := x.toBits.toNat / 0x8000000000000000 = 1

/-- A number as its shortest decimal, without an exponent and without a fraction where it has none;
`inf` and `NaN` by name. -/
def floatText (x : Float) : String :=
  if x.isNaN then "NaN"
  else
    let magnitude :=
      if x.isInf then "inf"
      else if x == 0 then "0"
      else (Dyadic.ofFloat x).shortest.text
    if isNegative x then "-" ++ magnitude else magnitude

/-- The number nearest to `digits / 10 ^ places`, with its sign. -/
def floatOfDecimal (negative : Bool) (digits places : Nat) : Float :=
  let magnitude := Float.ofScientific digits true places
  if negative then -magnitude else magnitude

/-- The number nearest to `digits · 10 ^ exponent`. A decimal that is far out of the range of all
numbers is infinite or zero, whatever its digits are. -/
def floatOfScientific (digits : Nat) (exponent : Int) : Float :=
  let scale := digitCount digits + exponent
  if digits = 0 || scale < -400 then 0
  else if 400 < scale then 1 / 0
  else Float.ofScientific digits (exponent < 0) exponent.natAbs

/-- The exponent after the mark `e`: digits with an optional sign. -/
def readExponent : List Char → Option Int
  | '+' :: digits => (readDigits digits).map fun n => (n : Int)
  | text => readSigned text

/-- The magnitude of a decimal with an optional fraction and an optional exponent; at least one
digit stands before the exponent. -/
def readMagnitude (text : List Char) : Option Float :=
  let mantissa := text.takeWhile fun c => c != 'e' && c != 'E'
  let whole := mantissa.takeWhile (· != '.')
  let fraction := (mantissa.dropWhile (· != '.')).drop 1
  let digits := whole ++ fraction
  if digits.isEmpty || !digits.all Char.isDigit then none
  else
    let exponent : Option Int := match text.drop mantissa.length with
      | [] => some 0
      | _ :: rest => readExponent rest
    exponent.map fun e => floatOfScientific (Nat.ofDigitChars 10 digits 0) (e - fraction.length)

/-- Whether a text is the given word in any case. -/
def isWordAnyCase (word : String) (text : List Char) : Bool :=
  text.map Char.toLower == word.toList

/-- Reads a number of 64 bits: a decimal, `inf`, `infinity` or `nan`, with an optional sign. -/
def readFloat (text : List Char) : Option Float :=
  let (negative, magnitude) : Bool × List Char := match text with
    | '-' :: rest => (true, rest)
    | '+' :: rest => (false, rest)
    | rest => (false, rest)
  let number : Option Float :=
    if isWordAnyCase "inf" magnitude || isWordAnyCase "infinity" magnitude then some (1 / 0)
    else if isWordAnyCase "nan" magnitude then some (0 / 0)
    else readMagnitude magnitude
  number.map fun x => if negative then -x else x

/-- The nearest number with a mantissa of 24 bits, as the formats of 32 bits hold it. -/
def roundSingle (x : Float) : Float :=
  if !x.isFinite || x == 0 then x
  else
    let d := Dyadic.ofFloat x
    let length := d.mantissa.log2 + 1
    let exponent := max (d.exponent + length - 24) (-149)
    let shift := (exponent - d.exponent).toNat
    let unit := Nat.pow 2 shift
    let n := d.mantissa / unit
    let rest := d.mantissa % unit
    let rounded := if unit < 2 * rest || (unit = 2 * rest && n % 2 = 1) then n + 1 else n
    let exponent := d.exponent + shift
    -- a power of two and a whole number below `2 ^ 25` have an exact product
    let power := if 0 ≤ exponent then Float.ofNat (Nat.pow 2 exponent.toNat)
      else 1 / Float.ofNat (Nat.pow 2 (-exponent).toNat)
    let magnitude := Float.ofNat rounded * power
    if isNegative x then -magnitude else magnitude

end Formwork.Numeric
