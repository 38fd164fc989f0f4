import Formwork.Text.Blank
import Formwork.Text.Unicode.Case

/-!
# Character properties by name

A property has a short and a long name. Case, blanks, hyphens and underscores in a name do not
count, nor does `is` in front of it.
-/

namespace Formwork.Text.Unicode

/-- A property of characters. -/
inductive CharProperty where
  | category (members : List Category)
  | script (name : String)
  | alphabetic
  | lowercase
  | uppercase
  | whiteSpace
  | any
  | ascii
  | assigned
  deriving DecidableEq

/-- Marks that count as letters. -/
def alphabeticMarks : CodeSet := .ofText <|
    "345 5b0-5bd 5bf 5c1-5c2 5c4-5c5 5c7 610-61a 64b-657 659-65f 670 6d6-6dc 6e1-6e4 6e7-6e8 " ++
    "6ed 711 730-73f 7a6-7b0 816-817 81b-823 825-827 829-82c 8d4-8df 8e3-8e9 8f0-903 93a-93b " ++
    "93e-94c 94e-94f 955-957 962-963 981-983 9be-9c4 9c7-9c8 9cb-9cc 9d7 9e2-9e3 a01-a03 " ++
    "a3e-a42 a47-a48 a4b-a4c a51 a70-a71 a75 a81-a83 abe-ac5 ac7-ac9 acb-acc ae2-ae3 afa-afc " ++
    "b01-b03 b3e-b44 b47-b48 b4b-b4c b56-b57 b62-b63 b82 bbe-bc2 bc6-bc8 bca-bcc bd7 c00-c04 " ++
    "c3e-c44 c46-c48 c4a-c4c c55-c56 c62-c63 c81-c83 cbe-cc4 cc6-cc8 cca-ccc cd5-cd6 ce2-ce3 " ++
    "cf3 d00-d03 d3e-d44 d46-d48 d4a-d4c d57 d62-d63 d81-d83 dcf-dd4 dd6 dd8-ddf df2-df3 e31 " ++
    "e34-e3a e4d eb1 eb4-eb9 ebb-ebc ecd f71-f83 f8d-f97 f99-fbc 102b-1036 1038 103b-103e " ++
    "1056-1059 105e-1060 1062-1064 1067-106d 1071-1074 1082-108d 108f 109a-109d 1712-1713 " ++
    "1732-1733 1752-1753 1772-1773 17b6-17c8 1885-1886 18a9 1920-192b 1930-1938 1a17-1a1b " ++
    "1a55-1a5e 1a61-1a74 1abf-1ac0 1acc-1ace 1b00-1b04 1b35-1b43 1b80-1b82 1ba1-1ba9 1bac-1bad " ++
    "1be7-1bf1 1c24-1c36 1de7-1df4 2de0-2dff a674-a67b a69e-a69f a802 a80b a823-a827 a880-a881 " ++
    "a8b4-a8c3 a8c5 a8ff a926-a92a a947-a952 a980-a983 a9b4-a9bf a9e5 aa29-aa36 aa43 aa4c-aa4d " ++
    "aa7b-aa7d aab0 aab2-aab4 aab7-aab8 aabe aaeb-aaef aaf5 abe3-abea fb1e 10376-1037a " ++
    "10a01-10a03 10a05-10a06 10a0c-10a0f 10d24-10d27 10eab-10eac 11000-11002 11038-11045 " ++
    "11073-11074 11080-11082 110b0-110b8 110c2 11100-11102 11127-11132 11145-11146 11180-11182 " ++
    "111b3-111bf 111ce-111cf 1122c-11234 11237 1123e 11241 112df-112e8 11300-11303 1133e-11344 " ++
    "11347-11348 1134b-1134c 11357 11362-11363 11435-11441 11443-11445 114b0-114c1 115af-115b5 " ++
    "115b8-115be 115dc-115dd 11630-1163e 11640 116ab-116b5 1171d-1172a 1182c-11838 11930-11935 " ++
    "11937-11938 1193b-1193c 11940 11942 119d1-119d7 119da-119df 119e4 11a01-11a0a 11a35-11a39 " ++
    "11a3b-11a3e 11a51-11a5b 11a8a-11a97 11c2f-11c36 11c38-11c3e 11c92-11ca7 11ca9-11cb6 " ++
    "11d31-11d36 11d3a 11d3c-11d3d 11d3f-11d41 11d43 11d47 11d8a-11d8e 11d90-11d91 11d93-11d96 " ++
    "11ef3-11ef6 11f00-11f01 11f03 11f34-11f3a 11f3e-11f40 16f4f 16f51-16f87 16f8f-16f92 " ++
    "16ff0-16ff1 1bc9e 1e000-1e006 1e008-1e018 1e01b-1e021 1e023-1e024 1e026-1e02a 1e08f 1e947"

/-- Whether a character counts as a letter. -/
def isAlphabetic (c : Char) : Bool :=
  let k := Category.of c
  k.isLetter || k == .letterNumber || alphabeticSymbols.contains c || alphabeticMarks.contains c

/-- The characters of some scripts, by the name of the script and its short name. -/
def scripts : List (String × String × CodeSet) :=
  [("latin", "latn", .ofText <|
      "41-5a 61-7a aa ba c0-d6 d8-f6 f8-2b8 2e0-2e4 1d00-1d25 1d2c-1d5c 1d62-1d65 1d6b-1d77 " ++
      "1d79-1dbe 1e00-1eff 2071 207f 2090-209c 212a-212b 2132 214e 2160-2188 2c60-2c7f " ++
      "a722-a787 a78b-a7ca a7d0-a7d1 a7d3 a7d5-a7d9 a7f2-a7ff ab30-ab5a ab5c-ab64 ab66-ab69 " ++
      "fb00-fb06 ff21-ff3a ff41-ff5a 10780-10785 10787-107b0 107b2-107ba 1df00-1df1e 1df25-1df2a"),
    ("greek", "grek", .ofText <|
      "370-373 375-377 37a-37d 37f 384 386 388-38a 38c 38e-3a1 3a3-3e1 3f0-3ff 1d26-1d2a " ++
      "1d5d-1d61 1d66-1d6a 1dbf 1f00-1f15 1f18-1f1d 1f20-1f45 1f48-1f4d 1f50-1f57 1f59 1f5b " ++
      "1f5d 1f5f-1f7d 1f80-1fb4 1fb6-1fc4 1fc6-1fd3 1fd6-1fdb 1fdd-1fef 1ff2-1ff4 1ff6-1ffe " ++
      "2126 ab65 10140-1018e 101a0 1d200-1d245"),
    ("cyrillic", "cyrl", .ofText <|
      "400-484 487-52f 1c80-1c88 1d2b 1d78 2de0-2dff a640-a69f fe2e-fe2f 1e030-1e06d 1e08f"),
    ("han", "hani", .ofText <|
      "2e80-2e99 2e9b-2ef3 2f00-2fd5 3005 3007 3021-3029 3038-303b 3400-4dbf 4e00-9fff " ++
      "f900-fa6d fa70-fad9 16fe2-16fe3 16ff0-16ff1 20000-2a6df 2a700-2b739 2b740-2b81d " ++
      "2b820-2cea1 2ceb0-2ebe0 2f800-2fa1d 30000-3134a 31350-323af"),
    ("hiragana", "hira", .ofText <|
      "3041-3096 309d-309f 1b001-1b11f 1b132 1b150-1b152 1f200"),
    ("katakana", "kana", .ofText <|
      "30a1-30fa 30fd-30ff 31f0-31ff 32d0-32fe 3300-3357 ff66-ff6f ff71-ff9d 1aff0-1aff3 " ++
      "1aff5-1affb 1affd-1affe 1b000 1b120-1b122 1b155 1b164-1b167"),
    ("hangul", "hang", .ofText <|
      "1100-11ff 302e-302f 3131-318e 3200-321e 3260-327e a960-a97c ac00-d7a3 d7b0-d7c6 " ++
      "d7cb-d7fb ffa0-ffbe ffc2-ffc7 ffca-ffcf ffd2-ffd7 ffda-ffdc"),
    ("arabic", "arab", .ofText <|
      "600-604 606-60b 60d-61a 61c-61e 620-63f 641-64a 656-66f 671-6dc 6de-6ff 750-77f 870-88e " ++
      "890-891 898-8e1 8e3-8ff fb50-fbc2 fbd3-fd3d fd40-fd8f fd92-fdc7 fdcf fdf0-fdff fe70-fe74 " ++
      "fe76-fefc 10e60-10e7e 10efd-10eff 1ee00-1ee03 1ee05-1ee1f 1ee21-1ee22 1ee24 1ee27 " ++
      "1ee29-1ee32 1ee34-1ee37 1ee39 1ee3b 1ee42 1ee47 1ee49 1ee4b 1ee4d-1ee4f 1ee51-1ee52 " ++
      "1ee54 1ee57 1ee59 1ee5b 1ee5d 1ee5f 1ee61-1ee62 1ee64 1ee67-1ee6a 1ee6c-1ee72 " ++
      "1ee74-1ee77 1ee79-1ee7c 1ee7e 1ee80-1ee89 1ee8b-1ee9b 1eea1-1eea3 1eea5-1eea9 " ++
      "1eeab-1eebb 1eef0-1eef1"),
    ("hebrew", "hebr", .ofText <|
      "591-5c7 5d0-5ea 5ef-5f4 fb1d-fb36 fb38-fb3c fb3e fb40-fb41 fb43-fb44 fb46-fb4f"),
    ("thai", "thai", .ofText <|
      "e01-e3a e40-e5b"),
    ("devanagari", "deva", .ofText <|
      "900-950 955-963 966-97f a8e0-a8ff 11b00-11b09"),
    ("armenian", "armn", .ofText <|
      "531-556 559-58a 58d-58f fb13-fb17"),
    ("georgian", "geor", .ofText <|
      "10a0-10c5 10c7 10cd 10d0-10fa 10fc-10ff 1c90-1cba 1cbd-1cbf 2d00-2d25 2d27 2d2d")]

/-- Names of the general categories and of their groups. -/
def categoryNames : List (String × String × List Category) :=
  let letters : List Category :=
    [.uppercaseLetter, .lowercaseLetter, .titlecaseLetter, .modifierLetter, .otherLetter]
  [("l", "letter", letters), ("lc", "casedletter", letters.take 3),
    ("lu", "uppercaseletter", [.uppercaseLetter]), ("ll", "lowercaseletter", [.lowercaseLetter]),
    ("lt", "titlecaseletter", [.titlecaseLetter]), ("lm", "modifierletter", [.modifierLetter]),
    ("lo", "otherletter", [.otherLetter]),
    ("m", "mark", [.nonspacingMark, .spacingMark, .enclosingMark]),
    ("mn", "nonspacingmark", [.nonspacingMark]), ("mc", "spacingmark", [.spacingMark]),
    ("me", "enclosingmark", [.enclosingMark]),
    ("n", "number", [.decimalNumber, .letterNumber, .otherNumber]),
    ("nd", "decimalnumber", [.decimalNumber]), ("nl", "letternumber", [.letterNumber]),
    ("no", "othernumber", [.otherNumber]),
    ("p", "punctuation", [.connectorPunctuation, .dashPunctuation, .openPunctuation,
      .closePunctuation, .initialPunctuation, .finalPunctuation, .otherPunctuation]),
    ("pc", "connectorpunctuation", [.connectorPunctuation]),
    ("pd", "dashpunctuation", [.dashPunctuation]), ("ps", "openpunctuation", [.openPunctuation]),
    ("pe", "closepunctuation", [.closePunctuation]),
    ("pi", "initialpunctuation", [.initialPunctuation]),
    ("pf", "finalpunctuation", [.finalPunctuation]),
    ("po", "otherpunctuation", [.otherPunctuation]),
    ("s", "symbol", [.mathSymbol, .currencySymbol, .modifierSymbol, .otherSymbol]),
    ("sm", "mathsymbol", [.mathSymbol]), ("sc", "currencysymbol", [.currencySymbol]),
    ("sk", "modifiersymbol", [.modifierSymbol]), ("so", "othersymbol", [.otherSymbol]),
    ("z", "separator", [.spaceSeparator, .lineSeparator, .paragraphSeparator]),
    ("zs", "spaceseparator", [.spaceSeparator]), ("zl", "lineseparator", [.lineSeparator]),
    ("zp", "paragraphseparator", [.paragraphSeparator]),
    ("c", "other", [.control, .format, .surrogate, .privateUse, .unassigned]),
    ("cc", "control", [.control]), ("cf", "format", [.format]), ("cs", "surrogate", [.surrogate]),
    ("co", "privateuse", [.privateUse]), ("cn", "unassigned", [.unassigned]),
    ("cntrl", "control", [.control]), ("digit", "decimalnumber", [.decimalNumber]),
    ("punct", "punctuation", [.connectorPunctuation, .dashPunctuation, .openPunctuation,
      .closePunctuation, .initialPunctuation, .finalPunctuation, .otherPunctuation]),
    ("combiningmark", "mark", [.nonspacingMark, .spacingMark, .enclosingMark])]

namespace CharProperty

/-- A name without what does not count in it. -/
def plainName (name : List Char) : List Char :=
  let lowered := name.map Char.toLower
  let bare := if lowered.take 2 == ['i', 's'] then lowered.drop 2 else lowered
  bare.filter fun c => c != ' ' && c != '_' && c != '-' && c.toNat < 128

/-- Properties that are no category and no script. -/
def ofWord? : String → Option CharProperty
  | "alpha" | "alphabetic" => some .alphabetic
  | "lower" | "lowercase" => some .lowercase
  | "upper" | "uppercase" => some .uppercase
  | "space" | "whitespace" | "wspace" => some .whiteSpace
  | _ => none

/-- The category of a name. -/
def ofCategory? (name : String) : Option CharProperty :=
  match name with
  | "any" => some .any
  | "ascii" => some .ascii
  | "assigned" => some .assigned
  | _ => (categoryNames.find? fun e => e.1 == name || e.2.1 == name).map fun e => .category e.2.2

/-- The script of a name. -/
def ofScript? (name : String) : Option CharProperty :=
  (scripts.find? fun e => e.1 == name || e.2.1 == name).map fun e => .script e.1

/-- The property of a name. -/
def ofName? (name : List Char) : Option CharProperty :=
  let plain := String.ofList (plainName name)
  (ofWord? plain).or ((ofCategory? plain).or (ofScript? plain))

/-- The property of a name and a value. -/
def ofPair? (name value : List Char) : Option CharProperty :=
  let value := String.ofList (plainName value)
  match String.ofList (plainName name) with
  | "gc" | "generalcategory" => ofCategory? value
  | "sc" | "script" => ofScript? value
  | _ => none

/-- Whether a character has the property. -/
def holds (p : CharProperty) (c : Char) : Bool :=
  match p with
  | .category members => members.contains (Category.of c)
  | .script name => (scripts.find? (·.1 == name)).any fun e => e.2.2.contains c
  | .alphabetic => isAlphabetic c
  | .lowercase => isLower c
  | .uppercase => isUpper c
  | .whiteSpace => Text.isSpace c
  | .any => true
  | .ascii => c.toNat < 128
  | .assigned => Category.of c != .unassigned

end CharProperty

end Formwork.Text.Unicode
