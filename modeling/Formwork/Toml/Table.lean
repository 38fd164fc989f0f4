import Formwork.Toml.Basic

/-!
# Building TOML tables

A table is written in pieces: by headers, by dotted names, and as the last of a list of tables.
Each piece may add to a table, and no piece may define again what another has defined. `Origin`
says how far a table is defined.
-/

namespace Formwork.Toml

/-- How a table has come to be: by a header, on the way of a header, or on the way of a dotted
name. -/
inductive Origin where
  | header
  | implied
  | dotted
  deriving DecidableEq

/-- A part of a document that is being built. Of a list of tables the last one stands first. -/
inductive Node where
  | value (v : TomlValue)
  | table (origin : Origin) (entries : List (String × Node))
  | tables (items : List (List (String × Node)))

/-- The entries of a table that is being built. -/
abbrev Entries := List (String × Node)

/-- A change of a table, unless it would define something again. -/
abbrev TableChange := Origin → Entries → Option Entries

/-- Changes the table at the end of a path, and makes the tables that are missing on the way. The
path of a dotted name does not go through tables with headers. -/
def descend (dotted : Bool) (change : TableChange) : List String → TableChange
  | [], origin, entries => change origin entries
  | name :: path, _, entries =>
    match entryOf name entries with
    | none =>
      let made := if dotted then .dotted else .implied
      (descend dotted change path made []).map fun inner =>
        putEntry name (.table made inner) entries
    | some (.table origin inner) =>
      if dotted ∧ origin = .header then none
      else
        (descend dotted change path origin inner).map fun inner =>
          putEntry name (.table origin inner) entries
    | some (.tables (last :: others)) =>
      (descend dotted change path .header last).map fun last =>
        putEntry name (.tables (last :: others)) entries
    | some (.tables []) | some (.value _) => none

/-- Puts a value into a table. Only a dotted name reaches a table that dotted names have made. -/
def putValue (plain : Bool) (name : String) (v : TomlValue) : TableChange := fun origin entries =>
  if plain = (origin == .dotted) ∨ (entryOf name entries).isSome then none
  else some (putEntry name (.value v) entries)

/-- Defines a table by a header. -/
def putTable (name : String) : TableChange := fun _ entries =>
  match entryOf name entries with
  | none => some (putEntry name (.table .header []) entries)
  | some (.table .implied inner) => some (putEntry name (.table .header inner) entries)
  | some _ => none

/-- Appends a table to a list of tables. -/
def pushTable (name : String) : TableChange := fun _ entries =>
  match entryOf name entries with
  | none => some (putEntry name (.tables [[]]) entries)
  | some (.tables items) => some (putEntry name (.tables ([] :: items)) entries)
  | some _ => none

/-- Puts a value at the end of a dotted name. -/
def putDotted (path : List String) (v : TomlValue) : TableChange := fun origin entries =>
  match path.getLast? with
  | some name =>
    let way := path.dropLast
    descend true (putValue way.isEmpty name v) way origin entries
  | none => none

mutual

/-- The value of a part. -/
def Node.toValue : Node → TomlValue
  | .value v => v
  | .table _ entries => .table (entryValues entries)
  | .tables items => .list (tableValues items).reverse

/-- The values of entries. -/
def entryValues : List (String × Node) → List (String × TomlValue)
  | [] => []
  | (name, n) :: rest => (name, n.toValue) :: entryValues rest

/-- The values of tables. -/
def tableValues : List (List (String × Node)) → List TomlValue
  | [] => []
  | entries :: rest => .table (entryValues entries) :: tableValues rest

end

/-- The table of dotted names with their values, as braces enclose them. -/
def inlineTable? (pairs : List (List String × TomlValue)) : Option TomlValue :=
  (pairs.foldlM (fun entries p => putDotted p.1 p.2 .header entries) []).map fun entries =>
    .table (entryValues entries)

end Formwork.Toml
