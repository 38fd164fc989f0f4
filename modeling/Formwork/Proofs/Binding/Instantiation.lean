import Formwork.Proofs.Binding.Limits
import Formwork.Proofs.Property.Typing

/-!
# What has to be created

A path may ask for containers that are not there: the payload of an absent option, the elements of
a sequence up to an index, the entry of a key (`Value.Misses`). Each of them is created with the
initial value of its type, and what the path misses in that counts as well.

- **Steps** (`advances_of_admits`): a step of a well-typed path goes on in a child, or stops at a
  container without an initial value.
- **Paths** (`bound_iff_instantiable`): a well-typed path is bound iff all that it misses can be
  created, and otherwise the parameter is refused for the type that has no initial value.
-/

namespace Formwork

namespace Value

/-- A container of a type is missing in a value on the way of a path, or in what is created
there. -/
inductive Misses (cx : BindContext) : List Segment → Value → Schema → Prop
  | payload {segment : Segment} {rest : List Segment} {inner : Schema} :
      Misses cx (segment :: rest) (.absent inner) inner
  | inPayload {segment : Segment} {rest : List Segment} {inner type : Schema} {fresh : Value} :
      cx.initial? inner = some fresh → Misses cx (segment :: rest) fresh type →
      Misses cx (segment :: rest) (.absent inner) type
  | present {segment : Segment} {rest : List Segment} {v : Value} {type : Schema} :
      Misses cx (segment :: rest) v type → Misses cx (segment :: rest) (.present v) type
  | boxed {segment : Segment} {rest : List Segment} {v : Value} {type : Schema} :
      Misses cx (segment :: rest) v type → Misses cx (segment :: rest) (.boxed v) type
  | element {key : String} {i : Nat} {rest : List Segment} {element : Schema}
      {items : List Value} : index? key = some i → items.length ≤ i →
      Misses cx (.index key :: rest) (.sequence element items) element
  | inElement {key : String} {i : Nat} {rest : List Segment} {element type : Schema}
      {items : List Value} {child : Value} : index? key = some i →
      items[i]?.or (cx.initial? element) = some child → Misses cx rest child type →
      Misses cx (.index key :: rest) (.sequence element items) type
  | entry {segment : Segment} {rest : List Segment} {kind : MapKind} {element : Schema}
      {entries : List (MapKey × Value)} {key : MapKey} :
      MapKey.read? kind.key segment.key = some key → keyed? key entries = none →
      Misses cx (segment :: rest) (.map kind element entries) element
  | inEntry {segment : Segment} {rest : List Segment} {kind : MapKind} {element type : Schema}
      {entries : List (MapKey × Value)} {key : MapKey} {child : Value} :
      MapKey.read? kind.key segment.key = some key →
      (keyed? key entries).or (cx.initial? element) = some child → Misses cx rest child type →
      Misses cx (segment :: rest) (.map kind element entries) type
  | inProperty {segment : Segment} {rest : List Segment} {d : BeanDescriptor}
      {fields : List (String × Value)} {name : String} {child : Value} {type : Schema} :
      d.field? segment.key = some name → field? name fields = some child →
      Misses cx rest child type → Misses cx (segment :: rest) (.bean d fields) type

variable {cx : BindContext} {types : BeanTypes} {s : Schema} {v : Value} {segment : Segment}
  {rest path : List Segment}

/-! ## Steps -/

/-- A step of a path goes on in a child, where all that the path misses is that can be created or
missed there as well, or it stops at a container without an initial value. -/
inductive Advances (cx : BindContext) (types : BeanTypes) (segment : Segment)
    (rest : List Segment) (v : Value) : Prop
  | goesOn (selection : Selection) {inner : Schema} :
      (v.filled cx).select cx segment = .ok selection → selection.child.HasType types inner →
      inner.Admits types cx.maxIndex rest →
      (∀ type, v.Misses cx (segment :: rest) type →
        (cx.initial? type).isSome = true ∨ selection.child.Misses cx rest type) →
      (∀ type, selection.child.Misses cx rest type → v.Misses cx (segment :: rest) type) →
      Advances cx types segment rest v
  | stops {type : Schema} :
      (v.filled cx).select cx segment = .error (.uninstantiable type.name) →
      v.Misses cx (segment :: rest) type → cx.initial? type = none →
      Advances cx types segment rest v

/-- A step advances in a value as in another one that it goes through to it. -/
theorem Advances.inside {w : Value} (wrap : Value → Value)
    (hselect : (w.filled cx).select cx segment =
      ((v.filled cx).select cx segment).map (Selection.inside wrap))
    (hmiss : ∀ type, w.Misses cx (segment :: rest) type →
      (cx.initial? type).isSome = true ∨ v.Misses cx (segment :: rest) type)
    (hback : ∀ type, v.Misses cx (segment :: rest) type → w.Misses cx (segment :: rest) type)
    (h : Advances cx types segment rest v) : Advances cx types segment rest w := by
  cases h with
  | goesOn selection hs ht hp hforth hv =>
    refine .goesOn (selection.inside wrap) (by rw [hselect, hs]; rfl) ht hp
      (fun type hm => ?_) fun type hm => hback type (hv type hm)
    rcases hmiss type hm with hsome | hm
    · exact .inl hsome
    · exact hforth type hm
  | stops hs hm hnone => exact .stops (by rw [hselect, hs]; rfl) (hback _ hm) hnone

theorem Advances.present (h : Advances cx types segment rest v) :
    Advances cx types segment rest (.present v) := by
  refine h.inside .present (by rw [filled, select]) (fun type hm => ?_) fun type => .present
  cases hm with
  | present hm => exact .inr hm

theorem Advances.boxed (h : Advances cx types segment rest v) :
    Advances cx types segment rest (.boxed v) := by
  refine h.inside .boxed (by rw [filled, select]) (fun type hm => ?_) fun type => .boxed
  cases hm with
  | boxed hm => exact .inr hm

/-- A step goes through an absent option as it goes through a new payload, if there is one. -/
theorem Advances.absent (hc : cx.Typed types) {inner : Schema}
    (h : ∀ fresh, cx.initial? inner = some fresh → Advances cx types segment rest fresh) :
    Advances cx types segment rest (.absent inner) := by
  have hfilled : (Value.absent inner).filled cx =
      (((cx.initial? inner).map (filled cx)).map .present).getD (.absent inner) := by
    rw [filled, BindContext.filled?_eq hc]
  cases hf : cx.initial? inner with
  | none =>
    refine .stops ?_ .payload hf
    rw [hfilled, hf]
    rfl
  | some fresh =>
    refine (h fresh hf).inside .present (by rw [hfilled, hf]; rfl) (fun type hm => ?_)
      fun type => .inPayload hf
    cases hm with
    | payload => exact .inl (by rw [hf]; rfl)
    | inPayload hf' hm =>
      obtain rfl := Option.some.inj (hf.symm.trans hf')
      exact .inr hm

/-- A step into a sequence, at an index that is admitted. -/
theorem advances_element (hc : cx.Typed types) {element : Schema} {items : List Value}
    {key : String} {i : Nat} (hitems : ∀ v ∈ items, v.HasType types element)
    (hi : index? key = some i) (hmax : i ≤ cx.maxIndex)
    (hp : element.Admits types cx.maxIndex rest) :
    Advances cx types (.index key) rest (.sequence element items) := by
  have hbound : ¬ cx.maxIndex < i := Nat.not_lt.mpr hmax
  -- What the path misses is an element, or something in the one that it goes to.
  have hinv : ∀ {child type}, items[i]?.or (cx.initial? element) = some child →
      (Value.sequence element items).Misses cx (.index key :: rest) type →
      (type = element ∧ items[i]? = none) ∨ child.Misses cx rest type := by
    intro child type hchild hm
    cases hm with
    | element hi' hle =>
      obtain rfl := Option.some.inj (hi.symm.trans hi')
      exact .inl ⟨rfl, List.getElem?_eq_none_iff.mpr hle⟩
    | inElement hi' hchild' hm =>
      obtain rfl := Option.some.inj (hi.symm.trans hi')
      obtain rfl := Option.some.inj (hchild.symm.trans hchild')
      exact .inr hm
  cases hitem : items[i]? with
  | some child =>
    have hchild : items[i]?.or (cx.initial? element) = some child := by rw [hitem]; rfl
    refine .goesOn ⟨child, fun v => .sequence element (items.set i v)⟩
      (by simp only [filled, select, selectItem, hi, if_neg hbound, hitem])
      (hitems child (List.mem_of_getElem? hitem)) hp (fun type hm => ?_)
      fun type hm => .inElement hi hchild hm
    rcases hinv hchild hm with ⟨-, hnone⟩ | hm
    · rw [hitem] at hnone
      cases hnone
    · exact .inr hm
  | none =>
    cases hf : cx.initial? element with
    | none =>
      exact .stops (by simp only [filled, select, selectItem, hi, if_neg hbound, hitem, hf])
        (.element hi (List.getElem?_eq_none_iff.mp hitem)) hf
    | some fresh =>
      have hchild : items[i]?.or (cx.initial? element) = some fresh := by rw [hitem, hf]; rfl
      refine .goesOn
        ⟨fresh, fun v => .sequence element ((grown fresh (i + 1) items).set i v)⟩
        (by simp only [filled, select, selectItem, hi, if_neg hbound, hitem, hf])
        (BindContext.hasType_of_initial? hc hf) hp (fun type hm => ?_)
        fun type hm => .inElement hi hchild hm
      rcases hinv hchild hm with ⟨rfl, -⟩ | hm
      · exact .inl (by rw [hf]; rfl)
      · exact .inr hm

/-- A step into a map, at a key that can be read. -/
theorem advances_entry (hc : cx.Typed types) {kind : MapKind} {element : Schema}
    {entries : List (MapKey × Value)} {key : MapKey}
    (hentries : ∀ e ∈ entries, e.2.HasType types element)
    (hkey : MapKey.read? kind.key segment.key = some key)
    (hp : element.Admits types cx.maxIndex rest) :
    Advances cx types segment rest (.map kind element entries) := by
  cases hchild : (keyed? key entries).or (cx.initial? element) with
  | none =>
    obtain ⟨hnone, hf⟩ := Option.or_eq_none_iff.mp hchild
    exact .stops (by simp only [filled, select, selectEntry, hkey, hchild])
      (.entry hkey hnone) hf
  | some child =>
    have ht : child.HasType types element := by
      rcases Option.or_eq_some_iff.mp hchild with hheld | ⟨-, hf⟩
      · exact hentries _ (mem_of_keyed? hheld)
      · exact BindContext.hasType_of_initial? hc hf
    refine .goesOn ⟨child, fun v => .map kind element (putEntry key v entries)⟩
      (by simp only [filled, select, selectEntry, hkey, hchild]) ht hp (fun type hm => ?_)
      fun type hm => .inEntry hkey hchild hm
    cases hm with
    | entry hkey' hnone =>
      obtain rfl := Option.some.inj (hkey.symm.trans hkey')
      rw [hnone, Option.none_or] at hchild
      exact .inl (by rw [hchild]; rfl)
    | inEntry hkey' hchild' hm =>
      obtain rfl := Option.some.inj (hkey.symm.trans hkey')
      obtain rfl := Option.some.inj (hchild.symm.trans hchild')
      exact .inr hm

/-- A step of a well-typed path goes on in a child, or stops at a container that cannot be
created. -/
theorem advances_of_admits (hc : cx.Typed types) (hv : v.HasType types s)
    (hp : s.Admits types cx.maxIndex (segment :: rest)) :
    Advances cx types segment rest v := by
  -- Options and boxes are gone through; all other types take the step themselves.
  induction s generalizing v with
  | scalar t => cases hp
  | option inner ih =>
    cases hp with
    | option hp =>
      cases hv with
      | absent => exact .absent hc fun fresh hf => ih (BindContext.hasType_of_initial? hc hf) hp
      | present hv => exact .present (ih hv hp)
  | box inner ih =>
    cases hp with
    | box hp =>
      cases hv with
      | boxed hv => exact .boxed (ih hv hp)
  | sequence element ih =>
    cases hp with
    | element hi hmax hp =>
      cases hv with
      | sequence hitems => exact advances_element hc hitems hi hmax hp
  | map kind element ih =>
    cases hp with
    | entry hkey hp =>
      cases hv with
      | map hentries => exact advances_entry hc hentries hkey hp
  | bean name =>
    cases hp with
    | @property _ _ type _ htype hp =>
      cases hv with
      | @bean d fields hhas htyped =>
        obtain ⟨field, child, hfield, hchild⟩ := hhas _ _ htype
        refine .goesOn ⟨child, fun v => .bean d (putField field v fields)⟩
          (by simp only [filled, select, selectProperty_def, hfield, hchild])
          (htyped _ _ _ _ htype hfield hchild) hp (fun type hm => ?_)
          fun type hm => .inProperty hfield hchild hm
        cases hm with
        | inProperty hfield' hchild' hm =>
          obtain rfl := Option.some.inj (hfield.symm.trans hfield')
          obtain rfl := Option.some.inj (hchild.symm.trans hchild')
          exact .inr hm

/-! ## Paths -/

/-- A well-typed path reaches a value that takes text, and all that it misses can be created, or it
stops at a container that it misses and that cannot be created. -/
theorem reach_of_admits (hc : cx.Typed types) (hv : v.HasType types s)
    (hp : s.Admits types cx.maxIndex path) :
    (∃ leaf, reach cx path v = .ok leaf ∧ leaf.schema.takesText = true ∧
      ∀ type, v.Misses cx path type → (cx.initial? type).isSome = true) ∨
    ∃ type, reach cx path v = .error (.uninstantiable type.name) ∧ v.Misses cx path type ∧
      cx.initial? type = none := by
  induction path generalizing v s with
  | nil =>
    cases hp with
    | leaf htext => exact .inl ⟨v, rfl, hv.schema_eq ▸ htext, nofun⟩
  | cons segment rest ih =>
    cases advances_of_admits hc hv hp with
    | goesOn selection hs ht hadmits hmiss hback =>
      have hreach : reach cx (segment :: rest) v = reach cx rest selection.child := by
        rw [reach, hs]
      rcases ih ht hadmits with ⟨leaf, hleaf, htext, hall⟩ | ⟨type, herror, hm, hnone⟩
      · refine .inl ⟨leaf, hreach.trans hleaf, htext, fun type hm => ?_⟩
        rcases hmiss type hm with hsome | hm
        · exact hsome
        · exact hall type hm
      · exact .inr ⟨type, hreach.trans herror, hback type hm, hnone⟩
    | stops hs hm hnone => exact .inr ⟨_, by rw [reach, hs], hm, hnone⟩

/-- A path that reaches nothing is not bound, for the same reason. -/
theorem snd_descend_of_error {α : Type} {change : Value → Value × Except PropertyError α}
    {e : PropertyError} (h : reach cx path v = .error e) :
    (descend cx change path v).2 = .error e := by
  induction path generalizing v with
  | nil => cases h
  | cons segment rest ih =>
    rw [reach] at h
    simp only [descend]
    cases hs : (v.filled cx).select cx segment with
    | error e' =>
      rw [hs] at h
      exact congrArg Except.error (Except.error.inj h)
    | ok s =>
      rw [hs] at h
      exact ih h

/-- Text is taken at the end of a path that reaches a value of a type that takes it. -/
theorem bind_of_takesText (hb : cx.converters = .builtIn) {leaf : Value}
    (h : reach cx path v = .ok leaf) (htext : leaf.schema.takesText = true)
    (values : List String) : ∃ failures, (v.bind cx values path).2 = .ok failures := by
  obtain ⟨a, ha⟩ := BindContext.exists_assignment hb htext values
  have hassign : leaf.assign cx values = .ok (a.apply leaf, a.failures) := by
    rw [assign, ha]
    rfl
  exact ⟨a.failures, by rw [bind, snd_descend h, assigned, hassign]⟩

end Value

/-- **Creation.** With the built-in converters, binding a parameter whose name is a well-typed path
of a bean gives a result, with or without failed conversions, exactly if all that the path misses
has an initial value. Otherwise the parameter is refused for a type that the path misses and that
has none, and the error names the whole parameter. -/
theorem bound_iff_instantiable {cx : BindContext} {types : BeanTypes} {s : Schema} {bean : Value}
    {name : String} {path : PropertyPath} (hc : cx.Typed types) (hb : cx.converters = .builtIn)
    (hv : bean.HasType types s) (hparse : PropertyPath.parse name = .ok path)
    (hp : s.Admits types cx.maxIndex path.segments) (values : List String) :
    ((∃ failures, (bean.bind cx values path.segments).2 = .ok failures) ↔
      ∀ type, bean.Misses cx path.segments type → (cx.initial? type).isSome = true) ∧
    ((¬ ∃ failures, (bean.bind cx values path.segments).2 = .ok failures) →
      ∃ type, bean.Misses cx path.segments type ∧ cx.initial? type = none ∧
        (bindParameter cx name values bean).2 =
          .refused (.property name (.uninstantiable type.name))) := by
  rcases Value.reach_of_admits hc hv hp with ⟨leaf, hleaf, htext, hall⟩ | ⟨type, herror, hm, hnone⟩
  · have hbound := Value.bind_of_takesText hb hleaf htext values
    exact ⟨iff_of_true hbound hall, fun h => absurd hbound h⟩
  · have hrefused : (bean.bind cx values path.segments).2 = .error (.uninstantiable type.name) :=
      Value.snd_descend_of_error herror
    have hnot : ¬ ∃ failures, (bean.bind cx values path.segments).2 = .ok failures := by
      rintro ⟨failures, h⟩
      cases hrefused.symm.trans h
    refine ⟨iff_of_false hnot fun hall => ?_, fun _ => ⟨type, hm, hnone, ?_⟩⟩
    · have hsome := hall type hm
      rw [hnone] at hsome
      cases hsome
    · exact outcome_eq_refused_iff.mpr ⟨path, hparse, hrefused⟩

/-- The types of some properties of an order. -/
def orderTypes : BeanTypes := fun bean property =>
  match bean, property with
  | "Order", "shipping" => some (.option (.bean "Address"))
  | "Order", "owner" => some (.option (.box (.bean "Person")))
  | "Person", "username" => some (.option Fields.text)
  | "Address", "city" => some (.option Fields.text)
  | _, _ => none

theorem typed_orderTypes (converters : ConverterRegistry) (locale : Locale) :
    (Sample.bindContext converters locale).Typed orderTypes := by
  intro id v hv
  obtain ⟨t, -, rfl, fields, -, rfl⟩ := BeanCatalogue.exists_of_freshBean rfl hv
  have hchild : ∀ {bean property child}, t.descriptor.id = bean →
      (Sample.catalogue.fresh? bean).bind (Value.child? (.property property)) = some child →
      (Value.bean t.descriptor fields).child? (.property property) = some child := by
    rintro _ property child rfl h
    have hfresh : Sample.catalogue.fresh? t.descriptor.id =
        some (.bean t.descriptor fields) := hv
    rwa [hfresh] at h
  refine Value.hasType_bean fun property type htype => ?_
  unfold orderTypes at htype
  split at htype
  · next hid =>
    cases htype
    exact ⟨_, hchild hid rfl, .absent _⟩
  · next hid =>
    cases htype
    exact ⟨_, hchild hid rfl, .absent _⟩
  · next hid =>
    cases htype
    exact ⟨_, hchild hid rfl, .absent _⟩
  · next hid =>
    -- There are no new addresses.
    rw [BeanType.id, hid] at hv
    cases hv
  · cases htype

/-- The city of the shipping address of a new order is refused, as no address can be created; what
is missing on the way to the name of its owner can be. -/
theorem bound_iff_instantiable_order :
    (bindParameter (Sample.bindContext .builtIn .us) "shipping.city" ["Oslo"] newOrder).2 =
      .refused (.property "shipping.city" (.uninstantiable "Address")) ∧
    ∀ type, newOrder.Misses (Sample.bindContext .builtIn .us)
        [.property "owner", .property "username"] type →
      ((Sample.bindContext .builtIn .us).initial? type).isSome = true := by
  have hc := typed_orderTypes .builtIn .us
  have hv : newOrder.HasType orderTypes (.bean "Order") := hc "Order" newOrder rfl
  constructor
  · have hp : (Schema.bean "Order").Admits orderTypes 10000
        [.property "shipping", .property "city"] :=
      .property rfl (.option (.property rfl (.leaf rfl)))
    have hparse : PropertyPath.parse "shipping.city" =
        .ok ⟨"shipping.city", [.property "shipping", .property "city"]⟩ := rfl
    have hmiss : newOrder.Misses (Sample.bindContext .builtIn .us)
        [.property "shipping", .property "city"] (.bean "Address") :=
      .inProperty rfl rfl .payload
    obtain ⟨hiff, hrefused⟩ := bound_iff_instantiable hc rfl hv hparse hp ["Oslo"]
    obtain ⟨type, hm, -, ho⟩ := hrefused fun hbound => nomatch hiff.mp hbound _ hmiss
    rw [ho]
    cases hm with
    | inProperty hname hchild hm =>
      cases hname
      cases hchild
      cases hm with
      | payload => rfl
      | inPayload hfresh => cases hfresh
  · have hp : (Schema.bean "Order").Admits orderTypes 10000
        [.property "owner", .property "username"] :=
      .property rfl (.option (.box (.property rfl (.leaf rfl))))
    have hparse : PropertyPath.parse "owner.username" =
        .ok ⟨"owner.username", [.property "owner", .property "username"]⟩ := rfl
    exact (bound_iff_instantiable hc rfl hv hparse hp ["Ann"]).1.mp ⟨[], rfl⟩

end Formwork
