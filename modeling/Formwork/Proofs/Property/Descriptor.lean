import Formwork.Proofs.FirstUse
import Formwork.Property.Access

/-!
# Properties that are declared more than once

A descriptor has its accessors in two places: in the order of the properties and behind the index.

- **Both places** (`mem_accessors_iff`, `shown_eq`): the index finds what stands in the order of the
  properties, and so what is shown there is what is found.
- **One declaration** (`names_property`, `accessor?_property`): it adds its name iff that is new,
  and changes the accessors of its name only.
- **A sequence of declarations** (`names_declared`, `accessor?_declared`): the names stand in the
  order of their first declarations, and have the accessors of their last ones. What is read,
  changed and shown of a bean comes from those (`declared_consistent`).
- **Beans as values** (`bean_eq`): they are read, changed and shown through the accessors of their
  fields.
-/

namespace Formwork

namespace Descriptor

variable {α β γ : Type} {d : Descriptor α} {name : String} {a : α}

/-! ## The index and the order of the properties -/

theorem lt_length {i : Nat} (h : d.index.lookup name = some i) : i < d.accessors.length := by
  obtain ⟨hi, -⟩ := List.getElem?_eq_some_iff.mp ((d.indexed name i).mp h)
  simpa using hi

theorem lookup_index_eq_none_iff : d.index.lookup name = none ↔ name ∉ d.names := by
  rw [← not_iff_not, not_not, ← Ne, Option.ne_none_iff_exists', List.mem_iff_getElem?]
  exact exists_congr fun i => d.indexed name i

/-- The index finds what stands in the order of the properties. -/
theorem mem_accessors_iff : (name, a) ∈ d.accessors ↔ d.accessor? name = some a := by
  rw [List.mem_iff_getElem?]
  constructor
  · rintro ⟨i, hi⟩
    have hindex : d.index.lookup name = some i := (d.indexed name i).mpr (by simp [hi])
    simp [accessor?, hindex, hi]
  · intro h
    obtain ⟨i, hindex, h⟩ := Option.bind_eq_some_iff.mp h
    obtain ⟨⟨other, b⟩, hi, rfl⟩ := Option.map_eq_some_iff.mp h
    have hname : (d.accessors.map (·.1))[i]? = some name := (d.indexed name i).mp hindex
    rw [List.getElem?_map, hi, Option.map_some] at hname
    obtain rfl := Option.some.inj hname
    exact ⟨i, hi⟩

theorem accessor?_eq_none_iff : d.accessor? name = none ↔ name ∉ d.names := by
  rw [Option.eq_none_iff_forall_ne_some, names, List.mem_map]
  constructor
  · rintro h ⟨⟨other, b⟩, hm, rfl⟩
    exact h b (mem_accessors_iff.mp hm)
  · intro h b hb
    exact h ⟨(name, b), mem_accessors_iff.mpr hb, rfl⟩

/-- What is shown in the order of the properties is what the index finds. -/
theorem shown_eq (view : α → Option γ) : d.shown view =
    d.names.filterMap fun name => ((d.accessor? name).bind view).map fun x => (name, x) := by
  rw [shown, names, List.filterMap_map]
  refine List.filterMap_congr fun p hp => ?_
  simp [mem_accessors_iff.mp (show (p.1, p.2) ∈ d.accessors from hp)]

/-! ## One declaration -/

/-- A declared name keeps its place. -/
theorem property_of_lookup_some {i : Nat} (h : d.index.lookup name = some i) (a : α) :
    (d.property name a).accessors = d.accessors.set i (name, a) ∧
    (d.property name a).index = d.index := by
  unfold property
  split
  · next j hj =>
    obtain rfl := Option.some.inj (h.symm.trans hj)
    exact ⟨rfl, rfl⟩
  · next hnone => rw [h] at hnone; cases hnone

/-- A new name stands behind the others. -/
theorem property_of_lookup_none (h : d.index.lookup name = none) (a : α) :
    (d.property name a).accessors = d.accessors ++ [(name, a)] ∧
    (d.property name a).index = (name, d.accessors.length) :: d.index := by
  unfold property
  split
  · next j hj => rw [h] at hj; cases hj
  · exact ⟨rfl, rfl⟩

theorem id_property (d : Descriptor α) (name : String) (a : α) :
    (d.property name a).id = d.id := by
  unfold property
  split <;> rfl

/-- A name is added iff it is new. -/
theorem names_property (d : Descriptor α) (name : String) (a : α) :
    (d.property name a).names = if name ∈ d.names then d.names else d.names ++ [name] := by
  unfold names
  cases h : d.index.lookup name with
  | some i =>
    have hmem : name ∈ d.accessors.map (·.1) :=
      List.mem_iff_getElem?.mpr ⟨i, (d.indexed name i).mp h⟩
    rw [(property_of_lookup_some h a).1, names_set h, if_pos hmem]
  | none =>
    have hnew : name ∉ d.accessors.map (·.1) := lookup_index_eq_none_iff.mp h
    rw [(property_of_lookup_none h a).1, List.map_append, if_neg hnew]
    rfl

theorem accessor?_property_self (d : Descriptor α) (name : String) (a : α) :
    (d.property name a).accessor? name = some a := by
  rw [← mem_accessors_iff]
  cases h : d.index.lookup name with
  | some i =>
    rw [(property_of_lookup_some h a).1]
    exact List.mem_set (lt_length h) (name, a)
  | none =>
    rw [(property_of_lookup_none h a).1]
    exact List.mem_append_right _ (List.mem_singleton_self _)

theorem accessor?_property_of_ne {other : String} (hne : other ≠ name) (a : α) :
    (d.property name a).accessor? other = d.accessor? other := by
  unfold accessor?
  cases h : d.index.lookup name with
  | some i =>
    obtain ⟨haccessors, hindex⟩ := property_of_lookup_some h a
    rw [haccessors, hindex]
    cases hj : d.index.lookup other with
    | none => rfl
    | some j =>
      -- Two names do not stand in one place.
      have hij : i ≠ j := by
        rintro rfl
        have hname := (d.indexed other i).mp hj
        exact hne (Option.some.inj (hname.symm.trans ((d.indexed name i).mp h)))
      rw [Option.bind_some, Option.bind_some, List.getElem?_set_ne hij]
  | none =>
    obtain ⟨haccessors, hindex⟩ := property_of_lookup_none h a
    rw [haccessors, hindex, List.lookup_cons, beq_false_of_ne hne]
    cases hj : d.index.lookup other with
    | none => rfl
    | some j => simp [List.getElem?_append_left (lt_length hj)]

/-- A declaration changes the accessors of its name only. -/
theorem accessor?_property (d : Descriptor α) (name other : String) (a : α) :
    (d.property name a).accessor? other = if other = name then some a else d.accessor? other := by
  split
  · next h =>
    subst h
    exact accessor?_property_self d other a
  · next h => exact accessor?_property_of_ne h a

/-! ## A sequence of declarations -/

/-- The accessors in the last declaration of a name. -/
def lastDeclared (declarations : List (String × α)) (name : String) : Option α :=
  declarations.reverse.lookup name

theorem declared_concat (id : BeanId) (declarations : List (String × α))
    (p : String × α) :
    declared id (declarations ++ [p]) = (declared id declarations).property p.1 p.2 := by
  simp [declared]

theorem lastDeclared_concat (declarations : List (String × α)) (p : String × α) :
    lastDeclared (declarations ++ [p]) name =
      if name = p.1 then some p.2 else lastDeclared declarations name := by
  obtain ⟨added, a⟩ := p
  by_cases hname : name = added
  · subst hname
    simp [lastDeclared]
  · simp [lastDeclared, List.lookup_cons, beq_false_of_ne hname, hname]

theorem id_declared (id : BeanId) (declarations : List (String × α)) :
    (declared id declarations).id = id := by
  induction declarations using List.reverseRecOn with
  | nil => rfl
  | append_singleton declarations p ih => rw [declared_concat, id_property, ih]

/-- The names stand in the order of their first declarations. -/
theorem names_declared (id : BeanId) (declarations : List (String × α)) :
    (declared id declarations).names = (declarations.map (·.1)).eraseDups := by
  induction declarations using List.reverseRecOn with
  | nil => rfl
  | append_singleton declarations p ih =>
    rw [declared_concat, names_property, ih, List.map_append, List.map_singleton]
    split
    · next h => rw [eraseDups_concat_of_mem (List.mem_eraseDups.mp h)]
    · next h => rw [eraseDups_concat_of_not_mem (mt List.mem_eraseDups.mpr h)]

/-- A name has the accessors of its last declaration. -/
theorem accessor?_declared (id : BeanId) (declarations : List (String × α)) (name : String) :
    (declared id declarations).accessor? name = lastDeclared declarations name := by
  induction declarations using List.reverseRecOn with
  | nil => rfl
  | append_singleton declarations p ih =>
    rw [declared_concat, accessor?_property, lastDeclared_concat, ih]

/-- **Repeated declarations.** After any sequence of declarations, each name stands once, in the
order of first declarations, and an undeclared name has no accessors. A name that is declared has
the accessors of its last declaration, and a bean is read, changed and shown through those. -/
theorem declared_consistent (acc : α → Accessor β) (id : BeanId)
    (declarations : List (String × α)) :
    let d := declared id declarations
    let names := (declarations.map (·.1)).eraseDups
    let last := lastDeclared declarations
    d.names = names ∧
    (∀ name, d.accessor? name = last name) ∧
    (∀ name, d.accessor? name = none ↔ name ∉ declarations.map (·.1)) ∧
    ∀ bean : β,
      (∀ segment, d.child? acc bean segment =
        (last segment.key).bind fun a => (acc a).getter bean) ∧
      (∀ segment, d.select acc bean segment =
        ((last segment.key).bind fun a => (acc a).setter bean).elim
          (.error (.unknownProperty segment.key id.name)) .ok) ∧
      d.snapshot acc bean = .object (names.filterMap fun name =>
        ((last name).bind fun a => (acc a).getter bean).map fun v => (name, v.snapshot)) := by
  intro d names last
  have hnames : d.names = names := names_declared id declarations
  have hlast : ∀ name, d.accessor? name = last name := accessor?_declared id declarations
  refine ⟨hnames, hlast, fun name => ?_, fun bean => ⟨fun segment => ?_, fun segment => ?_, ?_⟩⟩
  · rw [accessor?_eq_none_iff, hnames, List.mem_eraseDups]
  · rw [child?, hlast]
  · rw [select, hlast, typeName, id_declared]
    cases (last segment.key).bind fun a => (acc a).setter bean <;> rfl
  · rw [snapshot, shown_eq, hnames]
    simp only [hlast, Option.map_bind, Option.map_map, Function.comp_def]

example :
    let d := declared "Place" [("city", "town"), ("zip", "zip"), ("city", "village")]
    d.names = ["city", "zip"] ∧ d.accessor? "city" = some "village" := ⟨rfl, rfl⟩

end Descriptor

namespace Value

/-! ## Beans as values -/

theorem lookup_fieldSnapshots (name : String) (fields : List (String × Value)) :
    (fieldSnapshots fields).lookup name = (field? name fields).map snapshot := by
  induction fields with
  | nil => rfl
  | cons f fields ih =>
    rw [fieldSnapshots, field?, List.lookup_cons]
    by_cases hname : f.1 = name
    · simp [hname]
    · rw [if_neg hname, ← ih, beq_false_of_ne (Ne.symm hname)]

/-- A bean among the values is read, changed and shown through the accessors of its fields. -/
theorem bean_eq (cx : BindContext) (d : BeanDescriptor) (fields : List (String × Value))
    (segment : Segment) :
    (bean d fields).child? segment = d.child? fieldAccessor fields segment ∧
    (bean d fields).select cx segment =
      (d.select fieldAccessor fields segment).map (Focus.map (bean d)) ∧
    (bean d fields).snapshot = d.snapshot fieldAccessor fields := by
  refine ⟨rfl, rfl, ?_⟩
  rw [snapshot, Descriptor.snapshot]
  simp only [lookup_fieldSnapshots, fieldAccessor]

end Value

end Formwork
