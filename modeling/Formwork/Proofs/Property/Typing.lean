import Formwork.Proofs.Conversion.BuiltIn
import Formwork.Proofs.Except
import Formwork.Proofs.Property.Numbers
import Formwork.Proofs.Property.Ordered

/-!
# Types of values and paths

Bean types declare the types of their properties (`BeanTypes`). A value is of a type if all values
in it are (`Value.HasType`), and a path is well typed for a type if each of its steps leads from a
type to one in it, and what it ends at takes text (`Schema.Admits`).

- **Initial values** (`hasType_of_initial?`): if new beans are of their types, so are the initial
  values of all types.
- **Ends of paths** (`exists_assignment`): with the built-in converters, an assignment to a type
  that takes text is not refused.
-/

namespace Formwork

/-- The types of the properties of beans, by the name of the bean type and of the property. -/
abbrev BeanTypes := BeanId → String → Option Schema

/-- A value is of a type, and the values in it are of the types in this type. -/
inductive Value.HasType (types : BeanTypes) : Value → Schema → Prop
  | scalar (s : Scalar) : HasType types (.scalar s) (.scalar s.type)
  | absent (inner : Schema) : HasType types (.absent inner) (.option inner)
  | present {v : Value} {inner : Schema} :
      HasType types v inner → HasType types (.present v) (.option inner)
  | boxed {v : Value} {inner : Schema} :
      HasType types v inner → HasType types (.boxed v) (.box inner)
  | sequence {element : Schema} {items : List Value} :
      (∀ v ∈ items, HasType types v element) →
      HasType types (.sequence element items) (.sequence element)
  | map {kind : MapKind} {element : Schema} {entries : List (MapKey × Value)} :
      (∀ e ∈ entries, HasType types e.2 element) →
      HasType types (.map kind element entries) (.map kind element)
  | bean {d : BeanDescriptor} {fields : List (String × Value)} :
      (∀ property type, types d.id property = some type →
        ∃ name child, d.field? property = some name ∧ Value.field? name fields = some child) →
      (∀ property type name child, types d.id property = some type →
        d.field? property = some name → Value.field? name fields = some child →
        HasType types child type) →
      HasType types (.bean d fields) (.bean d.id)

/-- New beans are of their types. -/
def BindContext.Typed (cx : BindContext) (types : BeanTypes) : Prop :=
  ∀ id v, cx.freshBean id = some v → v.HasType types (.bean id)

/-- Values of the type are assigned from text by the built-in converters. -/
def Schema.takesText : Schema → Bool
  | .scalar t => (ConverterRegistry.builtIn.converter? t).isSome
  | .option inner | .box inner => inner.takesText
  | .sequence element => element.takesText
  | .map _ _ | .bean _ => false

/-- A path is well typed for a type: its properties are declared, its indexes and keys can be read,
no index of a sequence is beyond the limit, and the type at its end takes text. -/
inductive Schema.Admits (types : BeanTypes) (limit : Nat) : Schema → List Segment → Prop
  | leaf {s : Schema} : s.takesText = true → Admits types limit s []
  | option {inner : Schema} {segment : Segment} {rest : List Segment} :
      Admits types limit inner (segment :: rest) →
      Admits types limit (.option inner) (segment :: rest)
  | box {inner : Schema} {segment : Segment} {rest : List Segment} :
      Admits types limit inner (segment :: rest) →
      Admits types limit (.box inner) (segment :: rest)
  | element {element : Schema} {key : String} {i : Nat} {rest : List Segment} :
      Value.index? key = some i → i ≤ limit → Admits types limit element rest →
      Admits types limit (.sequence element) (.index key :: rest)
  | entry {kind : MapKind} {element : Schema} {segment : Segment} {key : MapKey}
      {rest : List Segment} :
      MapKey.read? kind.key segment.key = some key → Admits types limit element rest →
      Admits types limit (.map kind element) (segment :: rest)
  | property {id : BeanId} {segment : Segment} {type : Schema} {rest : List Segment} :
      types id segment.key = some type → Admits types limit type rest →
      Admits types limit (.bean id) (segment :: rest)

theorem Value.HasType.schema_eq {types : BeanTypes} {v : Value} {s : Schema}
    (h : v.HasType types s) : v.schema = s := by
  induction h with
  | present _ ih => exact congrArg Schema.option ih
  | boxed _ ih => exact congrArg Schema.box ih
  | scalar | absent | sequence | map | bean => rfl

/-- A bean that has children of the declared types at its declared properties is of its type. -/
theorem Value.hasType_bean {types : BeanTypes} {d : BeanDescriptor}
    {fields : List (String × Value)}
    (h : ∀ property type, types d.id property = some type →
      ∃ child, (Value.bean d fields).child? (.property property) = some child ∧
        child.HasType types type) : (Value.bean d fields).HasType types (.bean d.id) := by
  refine .bean (fun property type htype => ?_) fun property type name child htype hname hchild => ?_
  · obtain ⟨child, hchild, -⟩ := h property type htype
    obtain ⟨name, hname, hfield⟩ := Option.bind_eq_some_iff.mp hchild
    exact ⟨name, child, hname, hfield⟩
  · obtain ⟨child', hchild', ht⟩ := h property type htype
    obtain ⟨name', hname', hfield'⟩ := Option.bind_eq_some_iff.mp hchild'
    obtain rfl := Option.some.inj (hname.symm.trans hname')
    obtain rfl := Option.some.inj (hchild.symm.trans hfield')
    exact ht

namespace BindContext

variable {cx : BindContext} {types : BeanTypes} {s : Schema} {v : Value}

/-- Initial values are of their types. -/
theorem hasType_of_initial? (hc : cx.Typed types) (h : cx.initial? s = some v) :
    v.HasType types s := by
  induction s generalizing v with
  | scalar t =>
    obtain ⟨x, hx, rfl⟩ := Option.map_eq_some_iff.mp h
    exact ScalarType.type_of_initial? hx ▸ .scalar x
  | option inner ih =>
    cases h
    exact .absent inner
  | box inner ih =>
    obtain ⟨x, hx, rfl⟩ := Option.map_eq_some_iff.mp h
    exact .boxed (ih hx)
  | sequence element ih =>
    cases h
    exact .sequence (by simp)
  | map kind element ih =>
    cases h
    exact .map (by simp)
  | bean id => exact hc id v h

/-- A new value with its options filled is the initial value with its options filled. -/
theorem filled?_eq (hc : cx.Typed types) (s : Schema) :
    cx.filled? s = (cx.initial? s).map (Value.filled cx) := by
  induction s with
  | scalar t => cases h : t.initial? <;> simp [filled?, initial?, h, Value.filled]
  | option inner => rfl
  | box inner ih => simp [filled?, initial?, ih, Function.comp_def, Value.filled]
  | sequence element => rfl
  | map kind element => rfl
  | bean id =>
    cases h : cx.freshBean id with
    | none => simp [filled?, initial?, h]
    | some v =>
      have hbean : v.filled cx = v := by
        cases hc id v h
        rfl
      simp [filled?, initial?, h, hbean]

/-! ## Ends of paths -/

theorem isSome_initial?_of_takesText (h : s.takesText = true) : (cx.initial? s).isSome = true := by
  induction s with
  | scalar t =>
    rw [initial?, Option.isSome_map]
    exact ConverterRegistry.isSome_initial?_of_builtIn h
  | box inner ih =>
    rw [initial?, Option.isSome_map]
    exact ih h
  | option | sequence => rfl
  | map | bean => cases h

/-- With the built-in converters, an assignment to a type that takes text is not refused. -/
theorem exists_assignment (hb : cx.converters = .builtIn) (h : s.takesText = true)
    (values : List String) : ∃ a, cx.assignment s values = .ok a := by
  induction s generalizing values with
  | scalar t =>
    rw [assignment, assignScalar, hb]
    split
    · exact ⟨_, rfl⟩
    · next raw _ =>
      obtain ⟨⟨value, errors⟩, hanswer⟩ : ∃ answer,
          ConverterRegistry.builtIn.convert t cx.locale raw [] = .ok answer :=
        ConverterRegistry.exists_convert_builtIn h []
      rw [hanswer]
      cases value with
      | some x => exact ⟨_, rfl⟩
      | none => cases errors <;> exact ⟨_, rfl⟩
  | option inner ih =>
    have hsome : (cx.initial? inner).isSome = true := isSome_initial?_of_takesText h
    obtain ⟨fresh, hfresh⟩ := Option.isSome_iff_exists.mp hsome
    obtain ⟨a, ha⟩ := ih h values
    rw [assignment]
    split
    · exact ⟨_, rfl⟩
    · simp only [hfresh, ha]
      exact ⟨_, rfl⟩
  | box inner ih =>
    obtain ⟨a, ha⟩ := ih h values
    exact ⟨a.map .boxed, by rw [assignment, ha]; rfl⟩
  | sequence element ih =>
    have hsome : (cx.initial? element).isSome = true := isSome_initial?_of_takesText h
    obtain ⟨fresh, hfresh⟩ := Option.isSome_iff_exists.mp hsome
    obtain ⟨parts, hparts⟩ :=
      exists_mapM_eq_ok (l := filledIn values) fun text _ => ih h [text]
    exact ⟨_, by rw [assignment_sequence_eq hfresh, hparts]; rfl⟩
  | map | bean => cases h

end BindContext

end Formwork
