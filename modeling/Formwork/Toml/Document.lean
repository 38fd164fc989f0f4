import Formwork.Toml.Quotation
import Formwork.Toml.Scalar
import Formwork.Toml.Table

/-!
# TOML documents

A document is a row of statements, one on a line: headers of tables, and names with their values.
`TomlValue.parse?` reads a document and gives its table.
-/

namespace Formwork.Toml

/-- How deep values may be nested, and how many parts a name may have. -/
def maxDepth : Nat := 79

/-! ## Names -/

/-- Whether a character may stand in a name without quotes. -/
def isBare (c : Char) : Bool := c.isAlphanum || c == '_' || c == '-'

/-- Reads one part of a name. -/
def readName (text : List Char) : Option (String × List Char) :=
  match text.head?.bind QuoteMark.ofChar? with
  | some q => readLineText q text
  | none =>
    let name := text.takeWhile isBare
    if name.isEmpty then none else some (String.ofList name, text.drop name.length)

/-- Reads a name with at most the given number of parts, and the white space around them. -/
def readDotted : Nat → List Char → Option (List String × List Char)
  | 0, _ => none
  | parts + 1, text =>
    match readName (skipGaps text) with
    | none => none
    | some (name, rest) =>
      match skipGaps rest with
      | '.' :: rest => (readDotted parts rest).map fun (path, rest) => (name :: path, rest)
      | rest => some ([name], rest)

/-- Reads a name and the equals sign behind it. -/
def readAssigned (text : List Char) : Option (List String × List Char) := do
  let (path, rest) ← readDotted maxDepth text
  return (path, skipGaps (← expect '=' rest))

/-! ## Values -/

mutual

/-- Reads a value; `depth` more levels may be nested in it. -/
def readValue : Nat → Nat → List Char → Option (TomlValue × List Char)
  | 0, _, _ => none
  | fuel + 1, depth, text =>
    match text, depth with
    | '[' :: rest, depth + 1 =>
      (readItems fuel depth (skipLines false rest)).map fun (items, rest) => (.list items, rest)
    | '\x7b' :: rest, depth + 1 =>
      match skipGaps rest with
      | '\x7d' :: rest => some (.table [], rest)
      | rest =>
        (readPairs fuel depth rest).bind fun (pairs, rest) =>
          (inlineTable? pairs).map (·, rest)
    | text, _ =>
      match text.head?.bind QuoteMark.ofChar? with
      | some q => (readText q text).map fun (s, rest) => (.text s, rest)
      | none => readWord text

/-- Reads the items of a list up to its end; a comma may follow the last one. -/
def readItems : Nat → Nat → List Char → Option (List TomlValue × List Char)
  | 0, _, _ => none
  | _ + 1, _, ']' :: rest => some ([], rest)
  | fuel + 1, depth, text =>
    match readValue fuel depth text with
    | none => none
    | some (v, rest) =>
      match skipLines false rest with
      | ',' :: rest =>
        (readItems fuel depth (skipLines false rest)).map fun (items, rest) => (v :: items, rest)
      | ']' :: rest => some ([v], rest)
      | _ => none

/-- Reads the entries of a table in braces up to its end. -/
def readPairs : Nat → Nat → List Char → Option (List (List String × TomlValue) × List Char)
  | 0, _, _ => none
  | fuel + 1, depth, text =>
    match readAssigned text with
    | none => none
    | some (path, rest) =>
      match readValue fuel depth rest with
      | none => none
      | some (v, rest) =>
        match skipGaps rest with
        | ',' :: rest =>
          (readPairs fuel depth rest).map fun (pairs, rest) => ((path, v) :: pairs, rest)
        | '\x7d' :: rest => some ([(path, v)], rest)
        | _ => none

end

/-! ## Statements -/

/-- A statement of a document. -/
inductive Statement where
  /-- What follows belongs to a table. -/
  | table (path : List String)
  /-- What follows belongs to a new table at the end of a list. -/
  | element (path : List String)
  | pair (path : List String) (v : TomlValue)

/-- Reads a statement without the end of its line. -/
def readStatement (text : List Char) : Option (Statement × List Char) :=
  match text with
  | '[' :: '[' :: rest => do
    let (path, rest) ← readDotted maxDepth rest
    return (.element path, ← expect ']' (← expect ']' rest))
  | '[' :: rest => do
    let (path, rest) ← readDotted maxDepth rest
    return (.table path, ← expect ']' rest)
  | text => do
    let (path, rest) ← readAssigned text
    let (v, rest) ← readValue rest.length.succ maxDepth rest
    return (.pair path v, rest)

/-- Reads the statements up to the end. -/
def readStatements : Nat → List Char → Option (List Statement)
  | 0, _ => none
  | fuel + 1, text =>
    match skipLines false text with
    | [] => some []
    | text => do
      let (s, rest) ← readStatement text
      return s :: (← readStatements fuel (← nextLine? rest))

/-- A document up to some statement: its entries, and the table that names belong to. -/
structure Draft where
  entries : Entries := []
  path : List String := []

namespace Draft

/-- Changes the table that a header leads to, and makes its table the present one. -/
def open? (d : Draft) (path : List String) (change : String → TableChange) : Option Draft :=
  match path.getLast? with
  | some name =>
    (descend false (change name) path.dropLast .header d.entries).map fun entries =>
      ⟨entries, path⟩
  | none => none

/-- Adds a statement. -/
def add? (d : Draft) : Statement → Option Draft
  | .table path => d.open? path putTable
  | .element path => d.open? path pushTable
  | .pair path v =>
    (descend false (putDotted path v) d.path .header d.entries).map fun entries =>
      { d with entries }

end Draft

end Formwork.Toml

namespace Formwork

/-- Reads a document, which may begin with a byte order mark. -/
def TomlValue.parse? (text : String) : Option TomlValue := do
  let text := match text.toList with
    | '\ufeff' :: rest => rest
    | text => text
  let statements ← Toml.readStatements (text.length + 1) text
  let draft ← statements.foldlM Toml.Draft.add? {}
  return .table (Toml.entryValues draft.entries)

end Formwork
