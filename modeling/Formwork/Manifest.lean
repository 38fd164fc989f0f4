import Formwork.Text.Blank

/-!
# Field manifests

A page writes the names of its fields into a hidden parameter. `ManifestCodec.delimited` joins them
by a delimiter.
-/

namespace Formwork

/-- How the names of fields are written into one text. -/
structure ManifestCodec where
  encode : List String → String
  /-- The names that a text lists; none if it lists no names. -/
  decode : String → Option (List String)

namespace ManifestCodec

/-- Cuts a text at every occurrence of a delimiter, from the left. `skip` characters of a delimiter
are still to be passed over. -/
def cut (delimiter : List Char) (skip : Nat) : List Char → List (List Char)
  | [] => [[]]
  | c :: rest =>
    match skip with
    | skip + 1 => cut delimiter skip rest
    | 0 =>
      if delimiter.isPrefixOf (c :: rest) then [] :: cut delimiter (delimiter.length - 1) rest
      else
        match cut delimiter 0 rest with
        | [] => [[c]]
        | part :: parts => (c :: part) :: parts

/-- Names between delimiters; white space around a name does not count, and neither do blank names.
An empty delimiter cannot be read. -/
def delimited (delimiter : String) : ManifestCodec where
  encode := String.intercalate delimiter
  decode text :=
    if delimiter.isEmpty then none
    else
      let names := ((cut delimiter.toList 0 text.toList).map Text.trimChars).filter
        fun name => !name.isEmpty
      if names.isEmpty then none else some (names.map String.ofList)

/-- Names between two vertical bars. -/
def standard : ManifestCodec := delimited "||"

end ManifestCodec

end Formwork
