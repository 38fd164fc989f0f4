/-!
# Field names

The field of a parameter is its name without the indexes and keys in brackets: `items[2].name` and
`items["a.b"].name` both belong to the field `items.name`.
-/

namespace Formwork

/-- Leaves out what stands in brackets: `depth` counts the open ones, and inside them a quote hides
everything up to the next quote of its kind. -/
def unindexedFrom (depth : Nat) (quote : Option Char) : List Char → List Char
  | [] => []
  | c :: rest =>
    match quote with
    | some q => unindexedFrom depth (if c = q then none else some q) rest
    | none =>
      if 0 < depth ∧ (c = '\'' ∨ c = '"') then unindexedFrom depth (some c) rest
      else if c = '[' then unindexedFrom (depth + 1) none rest
      else if c = ']' ∧ 0 < depth then unindexedFrom (depth - 1) none rest
      else if depth = 0 then c :: unindexedFrom 0 none rest
      else unindexedFrom depth none rest

/-- The field of a parameter name. -/
def fieldName (parameter : String) : String :=
  String.ofList (unindexedFrom 0 none parameter.toList)

end Formwork
