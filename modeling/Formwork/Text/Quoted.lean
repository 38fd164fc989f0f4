import Formwork.Text.Unicode.Category

/-!
# Quoted text

A quoted text stands between double quotes. Quotes and backslashes take a backslash, line ends and
tabulators are written by letter, and characters that do not show by themselves by their code
point.
-/

namespace Formwork.Text

/-- A character inside double quotes. -/
def quotedChar (c : Char) : List Char :=
  match c with
  | '\x00' => ['\\', '0']
  | '\t' => ['\\', 't']
  | '\r' => ['\\', 'r']
  | '\n' => ['\\', 'n']
  | '"' => ['\\', '"']
  | '\\' => ['\\', '\\']
  | c =>
    if (' ' ≤ c ∧ c ≤ '~') ∨ (Unicode.isPrintable c ∧ ¬ Unicode.isGraphemeExtend c) then [c]
    else ['\\', 'u', '\x7b'] ++ Nat.toDigits 16 c.toNat ++ ['\x7d']

/-- A text between double quotes. -/
def quoted (s : String) : String := String.ofList ('"' :: s.toList.flatMap quotedChar ++ ['"'])

/-- A list of quoted texts in brackets. -/
def quotedList (texts : List String) : String :=
  "[" ++ String.intercalate ", " (texts.map quoted) ++ "]"

end Formwork.Text
