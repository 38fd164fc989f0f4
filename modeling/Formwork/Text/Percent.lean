/-!
# Percent encoding and form data

`encodeComponent` writes every byte outside the unreserved characters as `%XX`. `formPairs` reads
form data: pairs between `&`, names and values around the first `=`, `+` for a blank, percent
escapes as bytes of UTF-8, with `U+FFFD` in place of bytes that are no text.
-/

namespace Formwork.Text

/-- The bytes of a text in UTF-8. -/
def utf8 (text : List Char) : List UInt8 := text.flatMap String.utf8EncodeChar

/-- Letters, digits and the four marks that stand for themselves in a component. -/
def isUnreserved (b : UInt8) : Bool :=
  let c := Char.ofNat b.toNat
  c.isAlphanum || c == '-' || c == '_' || c == '.' || c == '~'

/-- The upper-case hexadecimal digit of a number below sixteen. -/
def hexUpper (n : Nat) : Char :=
  if n < 10 then Char.ofNat ('0'.toNat + n) else Char.ofNat ('A'.toNat + (n - 10))

/-- A byte of a component: itself, or `%` and two digits. -/
def encodeByte (b : UInt8) : List Char :=
  if isUnreserved b then [Char.ofNat b.toNat]
  else ['%', hexUpper (b.toNat / 16), hexUpper (b.toNat % 16)]

/-- A text as one component of a URL. -/
def encodeComponent (s : String) : String :=
  String.ofList ((utf8 s.toList).flatMap encodeByte)

/-- The value of a hexadecimal digit. -/
def hexByte? (b : UInt8) : Option Nat :=
  let n := b.toNat
  if 48 ≤ n ∧ n ≤ 57 then some (n - 48)
  else if 65 ≤ n ∧ n ≤ 70 then some (n - 55)
  else if 97 ≤ n ∧ n ≤ 102 then some (n - 87)
  else none

/-- Replaces `%XX` by the byte it stands for; a percent sign without two digits stays. -/
def percentDecode : List UInt8 → List UInt8
  | [] => []
  | [b] => [b]
  | [b, c] => [b, c]
  | b :: h :: l :: rest =>
    if b = 37 then
      match hexByte? h, hexByte? l with
      | some x, some y => UInt8.ofNat (x * 16 + y) :: percentDecode rest
      | _, _ => b :: percentDecode (h :: l :: rest)
    else b :: percentDecode (h :: l :: rest)

/-- An unfinished character of UTF-8: the bytes still to come, the bits read so far, and the range
of the next byte. -/
structure PartialChar where
  left : Nat
  bits : Nat
  low : Nat
  high : Nat

/-- What a first byte begins: a whole character, an unfinished one, or nothing. -/
def firstByte (b : UInt8) : Option (Char ⊕ PartialChar) :=
  let n := b.toNat
  if n < 0x80 then some (.inl (Char.ofNat n))
  else if n < 0xc2 then none
  else if n < 0xe0 then some (.inr ⟨1, n - 0xc0, 0x80, 0xbf⟩)
  else if n < 0xf0 then
    some (.inr ⟨2, n - 0xe0, if n = 0xe0 then 0xa0 else 0x80, if n = 0xed then 0x9f else 0xbf⟩)
  else if n < 0xf5 then
    some (.inr ⟨3, n - 0xf0, if n = 0xf0 then 0x90 else 0x80, if n = 0xf4 then 0x8f else 0xbf⟩)
  else none

/-- Begins a character; a byte that begins none gives a replacement character. -/
def beginChar (b : UInt8) : List Char × Option PartialChar :=
  match firstByte b with
  | some (.inl c) => ([c], none)
  | some (.inr p) => ([], some p)
  | none => (['\ufffd'], none)

/-- One byte after an unfinished character or none: the characters that it completes, and what is
then unfinished. -/
def nextByte (pending : Option PartialChar) (b : UInt8) : List Char × Option PartialChar :=
  match pending with
  | none => beginChar b
  | some p =>
    if p.low ≤ b.toNat ∧ b.toNat ≤ p.high then
      let bits := p.bits * 64 + b.toNat % 64
      if p.left = 1 then ([Char.ofNat bits], none) else ([], some ⟨p.left - 1, bits, 0x80, 0xbf⟩)
    else
      let (shown, pending) := beginChar b
      ('\ufffd' :: shown, pending)

/-- Reads UTF-8 with a replacement character for each longest part that cannot be text. -/
def lossyFrom (pending : Option PartialChar) : List UInt8 → List Char
  | [] => if pending.isSome then ['\ufffd'] else []
  | b :: rest =>
    let (shown, pending) := nextByte pending b
    shown ++ lossyFrom pending rest

/-- The text of bytes, with replacement characters where they are no text. -/
def lossyText (bytes : List UInt8) : String := String.ofList (lossyFrom none bytes)

/-- A name or value of form data: blanks for `+`, bytes for escapes. -/
def formText (bytes : List UInt8) : String :=
  lossyText (percentDecode (bytes.map fun b => if b = 43 then 32 else b))

/-- The name and value of one pair, around its first `=`. -/
def formPair (bytes : List UInt8) : String × String :=
  (formText (bytes.takeWhile (· != 61)), formText ((bytes.dropWhile (· != 61)).drop 1))

/-- The pairs of form data in order; empty ones are passed over. -/
def formPairs (bytes : List UInt8) : List (String × String) :=
  ((bytes.splitOnP (· == 38)).filter (!·.isEmpty)).map formPair

end Formwork.Text
