import Formwork.Property.Schema

/-!
# Descriptors of bean types

A descriptor has the properties of a bean type in the order in which their names were declared
first, each with its accessors, and an index with the position of each name.

* `Descriptor.property`: declares a property, behind the others or in the place of its name.
  `Descriptor.declared` is the type after a sequence of declarations.
* `Descriptor.accessor?`: the accessors of a name, found through the index.
* `Descriptor.shown`: what the accessors show, one property after the other.
-/

namespace Formwork

/-- The index gives each name the position where it stands, and gives no other name a position. -/
def Indexes (index : List (String × Nat)) (names : List String) : Prop :=
  ∀ name i, index.lookup name = some i ↔ names[i]? = some name

theorem getElem?_concat_eq_some_iff {β : Type} {l : List β} {a b : β} {i : Nat} :
    (l ++ [a])[i]? = some b ↔ l[i]? = some b ∨ i = l.length ∧ a = b := by
  grind

/-- A new name has the position behind the others. -/
theorem Indexes.concat {index : List (String × Nat)} {names : List String}
    (h : Indexes index names) {name : String} (hnew : index.lookup name = none) :
    Indexes ((name, names.length) :: index) (names ++ [name]) := by
  intro other i
  rw [getElem?_concat_eq_some_iff, ← h, List.lookup_cons]
  by_cases ho : other = name
  · subst ho
    simp [hnew, eq_comm]
  · simp [beq_false_of_ne ho, Ne.symm ho]

/-- The properties of a bean type, each with its accessors. -/
structure Descriptor (α : Type) where
  id : BeanId
  /-- The properties in the order of the first declarations of their names. -/
  accessors : List (String × α)
  /-- The position of each name. -/
  index : List (String × Nat)
  indexed : Indexes index (accessors.map (·.1))

namespace Descriptor

variable {α γ : Type}

/-- A type without properties. -/
def empty (id : BeanId) : Descriptor α where
  id
  accessors := []
  index := []
  indexed := by simp [Indexes]

/-- The name of the type. -/
def typeName (d : Descriptor α) : String := d.id.name

/-- The names of the properties in the order of their first declaration. -/
def names (d : Descriptor α) : List String := d.accessors.map (·.1)

/-- The accessors of a property. -/
def accessor? (d : Descriptor α) (name : String) : Option α :=
  (d.index.lookup name).bind fun i => (d.accessors[i]?).map (·.2)

theorem names_set {d : Descriptor α} {name : String} {i : Nat}
    (h : d.index.lookup name = some i) (a : α) :
    (d.accessors.set i (name, a)).map (·.1) = d.accessors.map (·.1) := by
  obtain ⟨hi, hname⟩ := List.getElem?_eq_some_iff.mp ((d.indexed name i).mp h)
  rw [List.map_set]
  subst hname
  exact List.set_getElem_self hi

/-- Declares a property; a name that is declared already gets the new accessors in its place. -/
def property (d : Descriptor α) (name : String) (a : α) : Descriptor α :=
  match h : d.index.lookup name with
  | some i =>
    { d with
      accessors := d.accessors.set i (name, a)
      indexed := by rw [names_set h]; exact d.indexed }
  | none =>
    { d with
      accessors := d.accessors ++ [(name, a)]
      index := (name, d.accessors.length) :: d.index
      indexed := by simpa using d.indexed.concat h }

/-- The type with the properties of a sequence of declarations. -/
def declared (id : BeanId) (declarations : List (String × α)) : Descriptor α :=
  declarations.foldl (fun d p => d.property p.1 p.2) (empty id)

/-- What the accessors show, under the names of their properties. -/
def shown (d : Descriptor α) (view : α → Option γ) : List (String × γ) :=
  d.accessors.filterMap fun p => (view p.2).map fun x => (p.1, x)

end Descriptor

end Formwork
