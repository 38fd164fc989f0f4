/-!
# Tables over code points

Sets of characters and maps between them are written as short texts of hexadecimal ranges and
decoded once. A set is `41-5a 61-7a`; a map is `41-5a>61 100-12e/2>101 df>53.53`, where `/2` takes
every second code point, a range keeps its offset, and dots join several target characters.
-/

namespace Formwork.Text.Unicode

/-- The value of a hexadecimal digit. -/
def hexDigit? (c : Char) : Option Nat :=
  if '0' ≤ c ∧ c ≤ '9' then some (c.toNat - '0'.toNat)
  else if 'a' ≤ c ∧ c ≤ 'f' then some (c.toNat - 'a'.toNat + 10)
  else if 'A' ≤ c ∧ c ≤ 'F' then some (c.toNat - 'A'.toNat + 10)
  else none

/-- The number that the hexadecimal digits of a text write; other characters are passed over. -/
def hexValue (text : List Char) : Nat :=
  text.foldl (fun n c => match hexDigit? c with
    | some d => n * 16 + d
    | none => n) 0

/-- The character whose code point hexadecimal digits write. -/
def hexChar? (digits : List Char) : Option Char :=
  if digits.isEmpty || digits.any fun c => (hexDigit? c).isNone then none
  else
    let n := hexValue digits
    if h : n.isValidChar then some (Char.ofNatAux n h) else none

/-- The words of a table text. -/
def words (text : String) : List (List Char) :=
  (text.toList.splitOn ' ').filter (!·.isEmpty)

/-- A range `lo-hi` or a single code point `lo`. -/
def rangeOf (word : List Char) : Nat × Nat :=
  match word.splitOn '-' with
  | [lo, hi] => (hexValue lo, hexValue hi)
  | _ => (hexValue word, hexValue word)

/-- A set of code points as closed ranges. -/
structure CodeSet where
  ranges : Array (Nat × Nat)
  deriving Inhabited

namespace CodeSet

/-- Reads the ranges of a text. -/
def ofText (text : String) : CodeSet := ⟨((words text).map rangeOf).toArray⟩

/-- Whether a character is in one of the ranges. -/
def contains (s : CodeSet) (c : Char) : Bool :=
  s.ranges.any fun r => r.1 ≤ c.toNat && c.toNat ≤ r.2

end CodeSet

/-- A run of a map: every `step`-th code point from `first` to `last`, to `target` plus the offset,
followed by the characters of `tail`. -/
structure MapRun where
  first : Nat
  last : Nat
  step : Nat
  target : Nat
  tail : List Nat
  deriving Inhabited

/-- Reads one run of a map. -/
def MapRun.ofWord (word : List Char) : MapRun :=
  match word.splitOn '>' with
  | [source, target] =>
    let step := if source.contains '/' then 2 else 1
    let range := rangeOf (source.takeWhile (· != '/'))
    match (target.splitOn '.').map hexValue with
    | [] => ⟨range.1, range.2, step, 0, []⟩
    | t :: ts => ⟨range.1, range.2, step, t, ts⟩
  | _ => ⟨1, 0, 1, 0, []⟩

/-- A map from code points to short texts, given by runs. -/
structure CodeMap where
  runs : Array MapRun
  deriving Inhabited

namespace CodeMap

/-- Reads the runs of a text. -/
def ofText (text : String) : CodeMap := ⟨((words text).map MapRun.ofWord).toArray⟩

/-- Whether a run speaks of a code point. -/
def covers (r : MapRun) (n : Nat) : Bool :=
  r.first ≤ n && n ≤ r.last && (n - r.first) % r.step == 0

/-- The image of a character; a character that no run covers has none. -/
def get? (m : CodeMap) (c : Char) : Option (List Char) :=
  (m.runs.find? (covers · c.toNat)).map fun r =>
    Char.ofNat (r.target + (c.toNat - r.first)) :: r.tail.map Char.ofNat

/-- The characters that the map sends to the single character `t`. -/
def preimages (m : CodeMap) (t : Char) : List Char :=
  m.runs.toList.filterMap fun r =>
    let n := r.first + (t.toNat - r.target)
    if r.tail.isEmpty && r.target ≤ t.toNat && covers r n then some (Char.ofNat n) else none

end CodeMap

end Formwork.Text.Unicode
