import Formwork.Text.Unicode.Case

/-!
# Names and labels

`camelCase` makes the request name of a property from its field name, `label` the words that a
page shows for a property path.
-/

namespace Formwork.Text

/-- Drops underscores and puts the character after each into upper case. -/
def camelFrom (raised : Bool) : List Char → List Char
  | [] => []
  | c :: rest =>
    if c = '_' then camelFrom true rest
    else (if raised then Unicode.upper c else [c]) ++ camelFrom false rest

/-- The name `numberOne` of a field `number_one`; underscores in front are dropped. -/
def camelCase (name : String) : String :=
  String.ofList (camelFrom false (name.toList.dropWhile (· == '_')))

/-- The words of a name from one character on: `first` at its beginning, `lowered` after a
lower-case letter or a digit, `spaced` after a blank of the result. -/
def labelFrom (first lowered spaced : Bool) : List Char → List Char
  | [] => []
  | c :: rest =>
    if c = '_' ∨ c = '-' then ' ' :: labelFrom false false true rest
    else
      let shown :=
        if first then Unicode.upper c
        else if Unicode.isUpper c && lowered then [' ', c]
        else if spaced then Unicode.upper c
        else [c]
      shown ++ labelFrom false (Unicode.isLower c || c.isDigit) (shown.getLast? == some ' ') rest

/-- The last name of a path, without its indexes, as words: `items[2].unitPrice` is
`Unit Price`. -/
def label (path : String) : String :=
  let last := (path.toList.reverse.takeWhile (· != '.')).reverse
  String.ofList (labelFrom true false false (last.takeWhile (· != '[')))

end Formwork.Text
