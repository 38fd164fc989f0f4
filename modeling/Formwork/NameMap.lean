/-!
# Maps with names as keys

A `NameMap α` keeps its entries in ascending order of the name, so what the entries are does not
depend on the order in which they came in.

* `NameMap.get?_upsert`: changing the entry of one name changes the look-up of that name only.
* `NameMap.ext_get?`: two maps with the same look-ups are the same map.
-/

namespace Formwork

/-- A finite map from names to values, with its entries in ascending order of the name. -/
structure NameMap (α : Type) where
  /-- The entries in ascending order. -/
  entries : List (String × α)
  /-- Every name is smaller than the names after it. -/
  ascending : entries.Pairwise (fun a b => a.1 < b.1)
  deriving DecidableEq

namespace NameMap

variable {α β : Type}

/-- The value of the first entry with the name. -/
def find (name : String) : List (String × α) → Option α
  | [] => none
  | (n, v) :: rest => if n = name then some v else find name rest

/-- Replaces the entry of a name by `f` of its value, or puts `f none` where the name belongs. -/
def place (name : String) (f : Option α → α) : List (String × α) → List (String × α)
  | [] => [(name, f none)]
  | (n, v) :: rest =>
    if name < n then (name, f none) :: (n, v) :: rest
    else if n = name then (n, f (some v)) :: rest
    else (n, v) :: place name f rest

theorem mem_place {name : String} {f : Option α → α} {e : String × α} {l : List (String × α)}
    (h : e ∈ place name f l) : e.1 = name ∨ e ∈ l := by
  induction l with
  | nil => simp_all [place]
  | cons hd tl ih =>
    obtain ⟨n, v⟩ := hd
    grind [place]

theorem place_ascending {name : String} {f : Option α → α} {l : List (String × α)}
    (h : l.Pairwise (fun a b => a.1 < b.1)) :
    (place name f l).Pairwise (fun a b => a.1 < b.1) := by
  induction l with
  | nil => simp [place]
  | cons hd tl ih =>
    obtain ⟨n, v⟩ := hd
    have ⟨hn, htl⟩ := List.pairwise_cons.mp h
    unfold place
    split
    · rename_i hlt
      refine List.pairwise_cons.mpr ⟨fun e he => ?_, h⟩
      rcases List.mem_cons.mp he with rfl | he
      · exact hlt
      · exact String.lt_trans hlt (hn e he)
    · split
      · exact List.pairwise_cons.mpr ⟨hn, htl⟩
      · rename_i hlt hne
        refine List.pairwise_cons.mpr ⟨fun e he => ?_, ih htl⟩
        rcases mem_place he with h1 | h1
        · rw [h1]
          exact Std.lt_of_le_of_ne (Std.not_lt.mp hlt) hne
        · exact hn e h1

/-- The map without entries. -/
def empty : NameMap α := ⟨[], .nil⟩

instance : Inhabited (NameMap α) := ⟨empty⟩

/-- The value of a name. -/
def get? (m : NameMap α) (name : String) : Option α := find name m.entries

/-- Whether the name has an entry. -/
def contains (m : NameMap α) (name : String) : Bool := (m.get? name).isSome

/-- Gives a name the value that `f` makes of its present value. -/
def upsert (m : NameMap α) (name : String) (f : Option α → α) : NameMap α :=
  ⟨place name f m.entries, place_ascending m.ascending⟩

/-- Gives a name a value, whatever it had. -/
def insert (m : NameMap α) (name : String) (value : α) : NameMap α := m.upsert name fun _ => value

/-- The names in ascending order. -/
def names (m : NameMap α) : List String := m.entries.map (·.1)

/-- The values in ascending order of their names. -/
def values (m : NameMap α) : List α := m.entries.map (·.2)

/-- Whether there is no entry. -/
def isEmpty (m : NameMap α) : Bool := m.entries.isEmpty

/-- Inserts the pairs one after the other, so the last pair of a name stays. -/
def ofList (pairs : List (String × α)) : NameMap α :=
  pairs.foldl (fun m p => m.insert p.1 p.2) empty

/-- The map with `f` applied to every value. -/
def map (f : α → β) (m : NameMap α) : NameMap β :=
  ⟨m.entries.map fun e => (e.1, f e.2), List.pairwise_map.mpr m.ascending⟩

/-- A name below all names of the entries has no value. -/
theorem find_eq_none {name : String} {l : List (String × α)} (h : ∀ e ∈ l, name < e.1) :
    find name l = none := by
  induction l with
  | nil => rfl
  | cons e es ih =>
    obtain ⟨n, v⟩ := e
    have hn : name < n := h _ (List.mem_cons_self ..)
    have hne : n ≠ name := fun he => String.lt_irrefl name (he ▸ hn)
    simp [find, hne, ih fun e he => h e (List.mem_cons_of_mem _ he)]

theorem find_place (a b : String) (f : Option α → α) {l : List (String × α)}
    (h : l.Pairwise (fun a b => a.1 < b.1)) :
    find b (place a f l) = if a = b then some (f (find a l)) else find b l := by
  induction l with
  | nil => simp [place, find]
  | cons hd tl ih =>
    obtain ⟨n, v⟩ := hd
    have ⟨hn, htl⟩ := List.pairwise_cons.mp h
    have absent : ∀ c : String, c < n → find c tl = none := fun c hc =>
      find_eq_none fun e he => String.lt_trans hc (hn e he)
    unfold place
    split
    · rename_i hlt
      have hne : n ≠ a := fun he => String.lt_irrefl a (he ▸ hlt)
      by_cases hab : a = b
      · subst hab; simp [find, hne, absent a hlt]
      · simp [find, hab]
    · split
      · rename_i heq
        subst heq
        by_cases hab : n = b <;> simp [find, hab]
      · rename_i hne
        by_cases hnb : n = b
        · subst hnb
          have : a ≠ n := fun he => hne he.symm
          simp [find, this]
        · by_cases hab : a = b
          · subst hab; simp [find, hnb, ih htl]
          · simp [find, hnb, ih htl, hab]

/-- Changing the entry of one name changes the look-up of that name only. -/
@[simp] theorem get?_upsert (m : NameMap α) (a b : String) (f : Option α → α) :
    (m.upsert a f).get? b = if a = b then some (f (m.get? a)) else m.get? b :=
  find_place a b f m.ascending

@[simp] theorem get?_insert (m : NameMap α) (a b : String) (v : α) :
    (m.insert a v).get? b = if a = b then some v else m.get? b :=
  get?_upsert m a b _

@[simp] theorem get?_empty (a : String) : (empty : NameMap α).get? a = none := rfl

theorem eq_of_find_eq {l₁ l₂ : List (String × α)}
    (h₁ : l₁.Pairwise (fun a b => a.1 < b.1)) (h₂ : l₂.Pairwise (fun a b => a.1 < b.1))
    (h : ∀ name, find name l₁ = find name l₂) : l₁ = l₂ := by
  induction l₁ generalizing l₂ with
  | nil =>
    cases l₂ with
    | nil => rfl
    | cons e es =>
      have := h e.1
      simp [find] at this
  | cons e₁ es₁ ih =>
    cases l₂ with
    | nil =>
      have := h e₁.1
      simp [find] at this
    | cons e₂ es₂ =>
      obtain ⟨n₁, v₁⟩ := e₁
      obtain ⟨n₂, v₂⟩ := e₂
      have ⟨hn₁, ht₁⟩ := List.pairwise_cons.mp h₁
      have ⟨hn₂, ht₂⟩ := List.pairwise_cons.mp h₂
      have hnn : n₁ = n₂ := by
        rcases Decidable.em (n₁ < n₂) with hlt | hlt
        · have hne : n₂ ≠ n₁ := fun he => String.lt_irrefl n₁ (he ▸ hlt)
          have := h n₁
          simp [find, hne, find_eq_none fun e he => String.lt_trans hlt (hn₂ e he)] at this
        · rcases Decidable.em (n₂ < n₁) with hlt' | hlt'
          · have hne : n₁ ≠ n₂ := fun he => String.lt_irrefl n₂ (he ▸ hlt')
            have := h n₂
            simp [find, hne, find_eq_none fun e he => String.lt_trans hlt' (hn₁ e he)] at this
          · exact String.le_antisymm (String.not_lt.mp hlt') (String.not_lt.mp hlt)
      subst hnn
      have hvv : v₁ = v₂ := by
        have := h n₁
        simpa [find] using this
      subst hvv
      congr 1
      refine ih ht₁ ht₂ fun name => ?_
      by_cases hname : n₁ = name
      · subst hname
        rw [find_eq_none hn₁, find_eq_none hn₂]
      · have := h name
        simpa [find, hname] using this

/-- Two maps with the same look-ups are the same map. -/
theorem ext_get? {m₁ m₂ : NameMap α} (h : ∀ name, m₁.get? name = m₂.get? name) : m₁ = m₂ := by
  obtain ⟨l₁, h₁⟩ := m₁
  obtain ⟨l₂, h₂⟩ := m₂
  have : l₁ = l₂ := eq_of_find_eq h₁ h₂ h
  subst this
  rfl

end NameMap

end Formwork
