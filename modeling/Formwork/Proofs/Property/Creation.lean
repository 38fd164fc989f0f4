import Formwork.Proofs.Sample.Catalogue

/-!
# What binding creates

A step of a path first creates what it misses in a value (`Value.Provided`) and then goes on in one
child, while all else stays the same (`Value.Within`). So a path leaves behind at most the objects
that its steps miss (`Value.Created`), and an assignment at its end replaces one value
(`Value.Replaced`).

- **Preparation** (`created_prepared`): what the steps of a path alone make of a value does not
  depend on the submitted values, and it is the value itself if everything on the way is there
  (`prepared_of_resolve`).
- **Refused paths** (`created_of_bind_error`): a path that cannot be bound leaves what its steps
  created, and nothing else.
-/

namespace Formwork.Value

variable {cx : BindContext} {v w : Value} {segment : Segment} {k : Slot}

/-! ## Steps -/

/-- The children that a step leads to are in a relation, and all else in the two values is the
same. -/
inductive Within (R : Value → Value → Prop) (segment : Segment) : Value → Value → Prop
  | present {v w : Value} : Within R segment v w → Within R segment (.present v) (.present w)
  | boxed {v w : Value} : Within R segment v w → Within R segment (.boxed v) (.boxed w)
  | element {type : Schema} {front back : List Value} {child new : Value} {key : String} :
      segment = .index key → index? key = some front.length → R child new →
      Within R segment (.sequence type (front ++ child :: back))
        (.sequence type (front ++ new :: back))
  | entry {kind : MapKind} {type : Schema} {front back : List (MapKey × Value)}
      {child new : Value} {key : MapKey} :
      MapKey.read? kind.key segment.key = some key → R child new →
      Within R segment (.map kind type (front ++ (key, child) :: back))
        (.map kind type (front ++ (key, new) :: back))
  | property {d : BeanDescriptor} {front back : List (String × Value)} {child new : Value}
      {name : String} :
      d.field? segment.key = some name → R child new →
      Within R segment (.bean d (front ++ (name, child) :: back))
        (.bean d (front ++ (name, new) :: back))

/-- The second value is the first one with what a step misses created: the options in front of it
filled, and the sequence or map continued with initial values up to what it asks for. -/
inductive Provided (cx : BindContext) (segment : Segment) : Value → Value → Prop
  | enough (v : Value) : Provided cx segment v v
  | option {inner : Schema} {fresh w : Value} :
      cx.initial? inner = some fresh → Provided cx segment fresh w →
      Provided cx segment (.absent inner) (.present w)
  | present {v w : Value} : Provided cx segment v w → Provided cx segment (.present v) (.present w)
  | boxed {v w : Value} : Provided cx segment v w → Provided cx segment (.boxed v) (.boxed w)
  | elements {type : Schema} {items : List Value} {key : String} {i : Nat} {fresh : Value} :
      segment = .index key → index? key = some i → i ≤ cx.maxIndex → items.length ≤ i →
      cx.initial? type = some fresh →
      Provided cx segment (.sequence type items)
        (.sequence type (items ++ List.replicate (i + 1 - items.length) fresh))
  | entry {kind : MapKind} {type : Schema} {entries front back : List (MapKey × Value)}
      {key : MapKey} {fresh : Value} :
      MapKey.read? kind.key segment.key = some key → keyed? key entries = none →
      cx.initial? type = some fresh → entries = front ++ back →
      Provided cx segment (.map kind type entries)
        (.map kind type (front ++ (key, fresh) :: back))

theorem provided_trans {u : Value} (h : Provided cx segment v u)
    (hu : Provided cx segment u w) : Provided cx segment v w := by
  induction h generalizing w with
  | enough v => exact hu
  | option hf h ih =>
    cases hu with
    | enough => exact .option hf h
    | present hu => exact .option hf (ih hu)
  | present h ih =>
    cases hu with
    | enough => exact .present h
    | present hu => exact .present (ih hu)
  | boxed h ih =>
    cases hu with
    | enough => exact .boxed h
    | boxed hu => exact .boxed (ih hu)
  | elements hs hi hmax hle hf =>
    cases hu with
    | enough => exact .elements hs hi hmax hle hf
    | elements hs' hi' _ hle' =>
      -- There are enough elements already.
      obtain rfl := Segment.index.inj (hs.symm.trans hs')
      obtain rfl := Option.some.inj (hi.symm.trans hi')
      rw [List.length_append, List.length_replicate] at hle'
      omega
  | entry hk hn hf he =>
    cases hu with
    | enough => exact .entry hk hn hf he
    | entry hk' hn' =>
      -- The key has an entry already.
      obtain rfl := Option.some.inj (hk.symm.trans hk')
      simp [keyed?_append, keyed?] at hn'

/-! ## Slots -/

/-- Two contents of the slot that a step leads to. -/
theorem within_store {R : Value → Value → Prop} {old child new : Value} (ho : v.Ordered)
    (h : v.locate cx segment = .ok (k, old)) (hr : R child new) :
    Within R segment (v.store cx k child) (v.store cx k new) := by
  obtain ⟨ha, hc⟩ := locate_eq_ok_iff.mp h
  clear h
  induction ho with
  | scalar | absent => cases ha
  | present _ ih => exact .present (ih ha hc)
  | boxed _ ih => exact .boxed (ih ha hc)
  | @sequence type items _ =>
    obtain ⟨key, i, hs, hi, -, rfl⟩ := address_sequence_eq_ok ha
    have hsome : ((sequence type items).content? cx (.element i)).isSome := by
      rw [hc]
      rfl
    have hlt : i < (stretched cx type (i + 1) items).length := lt_length_stretched hsome
    have hsplit : ∀ x, (stretched cx type (i + 1) items).set i x =
        (stretched cx type (i + 1) items).take i ++
          x :: (stretched cx type (i + 1) items).drop (i + 1) := fun x =>
      List.set_eq_take_append_cons_drop.trans (if_pos hlt)
    show Within R segment (sequence type _) (sequence type _)
    rw [hsplit, hsplit]
    exact .element hs (by rw [hi, List.length_take_of_le (Nat.le_of_lt hlt)]) hr
  | @map kind type entries hkeys _ =>
    obtain ⟨key, hkey, rfl⟩ := address_map_eq_ok ha
    obtain ⟨front, back, -, hput⟩ := exists_putEntry_eq key hkeys
    show Within R segment (map kind type _) (map kind type _)
    rw [hput, hput]
    exact .entry hkey hr
  | @bean d fields _ =>
    obtain ⟨name, hname, rfl⟩ := address_bean_eq_ok ha
    have hfield : field? name fields = some old := by simpa [content?, held?, vacancy?] using hc
    obtain ⟨front, back, -, hput⟩ := exists_putField_eq hfield
    show Within R segment (bean d _) (bean d _)
    rw [hput, hput]
    exact .property hname hr

/-- Creating the content of the slot that a step leads to. -/
theorem provided_store {child : Value} (ho : v.Ordered)
    (h : v.locate cx segment = .ok (k, child)) :
    Provided cx segment v (v.store cx k child) := by
  obtain ⟨ha, hc⟩ := locate_eq_ok_iff.mp h
  clear h
  rcases Option.or_eq_some_iff.mp hc with hk | ⟨hk, hvacant⟩
  · rw [store_held ho hk]
    exact .enough v
  clear hc
  induction ho with
  | scalar | absent => cases ha
  | present _ ih => exact .present (ih ha hk hvacant)
  | boxed _ ih => exact .boxed (ih ha hk hvacant)
  | @sequence type items _ =>
    obtain ⟨key, i, hs, hi, hmax, rfl⟩ := address_sequence_eq_ok ha
    have hle : items.length ≤ i := List.getElem?_eq_none_iff.mp hk
    have hf : cx.initial? type = some child := hvacant
    have hset : (stretched cx type (i + 1) items).set i child =
        items ++ List.replicate (i + 1 - items.length) child := by
      simp only [stretched, hf, grown]
      rw [List.set_append_right _ _ hle, List.set_replicate_self]
    show Provided cx segment _ (sequence type _)
    rw [hset]
    exact .elements hs hi hmax hle hf
  | @map kind type entries hkeys _ =>
    obtain ⟨key, hkey, rfl⟩ := address_map_eq_ok ha
    obtain ⟨front, back, he, hput⟩ := exists_putEntry_eq key hkeys
    have hk : keyed? key entries = none := hk
    have hf : cx.initial? type = some child := hvacant
    show Provided cx segment _ (map kind type _)
    rw [hput]
    exact .entry hkey hk hf (by simpa [hk] using he)
  | @bean d fields _ => cases hvacant

theorem exists_initial?_of_filled? {s : Schema} (h : cx.filled? s = some w) :
    ∃ fresh, cx.initial? s = some fresh ∧ Provided cx segment fresh w := by
  induction s generalizing w with
  | option inner ih =>
    simp only [BindContext.filled?, Option.some.injEq] at h
    subst h
    refine ⟨.absent inner, rfl, ?_⟩
    cases hf : cx.filled? inner with
    | none => exact .enough _
    | some x =>
      obtain ⟨fresh, hfresh, hp⟩ := ih hf
      exact .option hfresh hp
  | box inner ih =>
    obtain ⟨x, hx, rfl⟩ := Option.map_eq_some_iff.mp h
    obtain ⟨fresh, hfresh, hp⟩ := ih hx
    exact ⟨.boxed fresh, by simp [BindContext.initial?, hfresh], .boxed hp⟩
  | scalar | sequence | map | bean => exact ⟨w, h, .enough w⟩

theorem provided_filled (v : Value) : Provided cx segment v (v.filled cx) := by
  induction v using layers with
  | absent inner =>
    cases hf : cx.filled? inner with
    | none =>
      simp only [filled, hf]
      exact .enough _
    | some x =>
      obtain ⟨fresh, hfresh, hp⟩ := exists_initial?_of_filled? hf
      simp only [filled, hf]
      exact .option hfresh hp
  | present v ih => exact .present ih
  | boxed v ih => exact .boxed ih
  | scalar | sequence | map | bean => exact .enough _

/-! ## Paths -/

/-- The second value is the first one with what the steps of a path miss created, as far as the
path is followed. -/
def Created (cx : BindContext) : List Segment → Value → Value → Prop
  | [], v, w => w = v
  | segment :: rest, v, w =>
    ∃ u, Provided cx segment v u ∧ (w = u ∨ Within (Created cx rest) segment u w)

/-- What the steps of a path make of a value, before anything is assigned. -/
def prepared (cx : BindContext) (path : List Segment) (v : Value) : Value :=
  (descend cx (fun x => (x, .ok ())) path v).1

section Preparation

variable {rest : List Segment}

theorem prepared_of_error {e : PropertyError}
    (h : (v.filled cx).locate cx segment = .error e) :
    prepared cx (segment :: rest) v = v.filled cx := by
  rw [prepared, descend_of_error h]

theorem prepared_of_ok {child : Value} (h : (v.filled cx).locate cx segment = .ok (k, child)) :
    prepared cx (segment :: rest) v = (v.filled cx).store cx k (prepared cx rest child) := by
  rw [prepared, descend_of_ok h]
  rfl

end Preparation

theorem created_prepared (hc : cx.Sound) (path : List Segment) (h : v.Ordered) :
    Created cx path v (prepared cx path v) := by
  induction path generalizing v with
  | nil => rfl
  | cons segment rest ih =>
    have hfilled := ordered_filled hc h
    cases hl : (v.filled cx).locate cx segment with
    | error e =>
      rw [prepared_of_error hl]
      exact ⟨v.filled cx, provided_filled v, .inl rfl⟩
    | ok found =>
      obtain ⟨k, child⟩ := found
      rw [prepared_of_ok hl]
      have hchild := ordered_content? hc hfilled (locate_eq_ok_iff.mp hl).2
      exact ⟨_, provided_trans (provided_filled v) (provided_store hfilled hl),
        .inr (within_store hfilled hl (ih hchild))⟩

/-! ## What is there already -/

/-- The child of a step is the one that stands in the slot it leads to. -/
theorem child?_eq_held? (h : v.address cx segment = .ok k) : v.child? segment = v.held? k := by
  induction v using layers with
  | scalar | absent => cases h
  | present v ih => exact ih h
  | boxed v ih => exact ih h
  | sequence type items =>
    obtain ⟨key, i, rfl, hi, -, rfl⟩ := address_sequence_eq_ok h
    simp [child?, held?, hi]
  | map kind type entries =>
    obtain ⟨key, hkey, rfl⟩ := address_map_eq_ok h
    simp [child?, held?, hkey]
  | bean d fields =>
    obtain ⟨name, hname, rfl⟩ := address_bean_eq_ok h
    simp [child?_bean, held?, hname]

/-- What was put where a step leads is the child of the step. -/
theorem child?_store {old : Value} (h : v.locate cx segment = .ok (k, old)) (child : Value) :
    (v.store cx k child).child? segment = some child := by
  have hs : v.select cx segment = .ok ⟨old, v.store cx k⟩ := by
    rw [select_eq, h]
    rfl
  exact child?_put hs child

/-- A value with a child has no absent option in front of it. -/
theorem filled_of_child? {child : Value} (h : v.child? segment = some child) :
    v.filled cx = v := by
  induction v using layers with
  | absent inner => cases h
  | present v ih => exact congrArg present (ih h)
  | boxed v ih => exact congrArg boxed (ih h)
  | scalar | sequence | map | bean => rfl

/-- A step that finds a child when reading also finds it when writing. -/
theorem held?_of_child? {child found : Value} (h : v.child? segment = some child)
    (hl : (v.filled cx).locate cx segment = .ok (k, found)) :
    v.held? k = some child ∧ found = child := by
  rw [filled_of_child? h] at hl
  obtain ⟨ha, hcontent⟩ := locate_eq_ok_iff.mp hl
  have hk : v.held? k = some child := (child?_eq_held? ha).symm.trans h
  refine ⟨hk, ?_⟩
  rw [content?, hk] at hcontent
  exact (Option.some.inj hcontent).symm

theorem child?_of_provided {child : Value} {step : Segment} (h : Provided cx segment v w)
    (hchild : v.child? step = some child) : w.child? step = some child := by
  induction h with
  | enough => exact hchild
  | option => cases hchild
  | present _ ih | boxed _ ih => exact ih hchild
  | elements =>
    cases step with
    | property name => cases hchild
    | index key =>
      obtain ⟨i, hi, hitem⟩ := Option.bind_eq_some_iff.mp hchild
      have hlt := (List.getElem?_eq_some_iff.mp hitem).1
      simp [child?, hi, List.getElem?_append_left hlt, hitem]
  | @entry kind type entries front back key fresh _ hn _ he =>
    obtain ⟨other, hother, hentry⟩ := Option.bind_eq_some_iff.mp hchild
    have hne : key ≠ other := by
      rintro rfl
      rw [hn] at hentry
      cases hentry
    rw [he, keyed?_append] at hentry
    simpa [child?, hother, keyed?_append, keyed?, hne] using hentry

/-- Of the children that are there, at most the one that the step leads to is another one. -/
theorem child?_of_within {R : Value → Value → Prop} {child : Value} {step : Segment}
    (h : Within R segment v w) (hchild : v.child? step = some child) :
    ∃ new, w.child? step = some new ∧ (new = child ∨ R child new) := by
  induction h with
  | present _ ih | boxed _ ih => exact ih hchild
  | @element type front back old new key _ _ hr =>
    cases step with
    | property name => cases hchild
    | index other =>
      obtain ⟨i, hi, hitem⟩ := Option.bind_eq_some_iff.mp hchild
      simp only [child?, hi, Option.bind_some]
      rcases Nat.lt_trichotomy i front.length with hlt | rfl | hgt
      · rw [List.getElem?_append_left hlt] at hitem ⊢
        exact ⟨child, hitem, .inl rfl⟩
      · simp only [List.getElem?_append_right (Nat.le_refl _), Nat.sub_self,
          List.getElem?_cons_zero, Option.some.injEq] at hitem ⊢
        subst hitem
        exact ⟨new, rfl, .inr hr⟩
      · rw [List.getElem?_append_right (Nat.le_of_lt hgt),
          List.getElem?_cons, if_neg (by omega)] at hitem ⊢
        exact ⟨child, hitem, .inl rfl⟩
  | @entry kind type front back old new key _ hr =>
    obtain ⟨other, hother, hentry⟩ := Option.bind_eq_some_iff.mp hchild
    simp only [child?, hother, Option.bind_some]
    rw [keyed?_append] at hentry ⊢
    cases hfront : keyed? other front with
    | some found => exact ⟨child, by simpa [hfront] using hentry, .inl rfl⟩
    | none =>
      simp only [hfront, Option.none_or, keyed?] at hentry ⊢
      grind
  | @property d front back old new name _ hr =>
    rw [child?_bean] at hchild
    obtain ⟨other, hother, hfield⟩ := Option.bind_eq_some_iff.mp hchild
    simp only [child?_bean, hother, Option.bind_some]
    rw [field?_append] at hfield ⊢
    cases hfront : field? other front with
    | some found => exact ⟨child, by simpa [hfront] using hfield, .inl rfl⟩
    | none =>
      simp only [hfront, Option.none_or, field?] at hfield ⊢
      grind

/-- What a path creates changes no scalar that was there before. -/
theorem resolve_of_created {path q : List Segment} {s : Scalar} (h : Created cx path v w)
    (hq : v.resolve q = some (.scalar s)) : w.resolve q = some (.scalar s) := by
  induction path generalizing v w q with
  | nil => rwa [h]
  | cons segment rest ih =>
    obtain ⟨u, hu, hw⟩ := h
    cases q with
    | nil =>
      cases hq
      -- A scalar misses nothing and has no children.
      cases hu
      rcases hw with rfl | hw
      · rfl
      · cases hw
    | cons step q =>
      obtain ⟨child, hchild, hrest⟩ := Option.bind_eq_some_iff.mp hq
      have hchildu := child?_of_provided hu hchild
      rcases hw with rfl | hw
      · rw [resolve, hchildu, Option.bind_some, hrest]
      · obtain ⟨new, hnew, hr⟩ := child?_of_within hw hchildu
        rw [resolve, hnew, Option.bind_some]
        rcases hr with rfl | hr
        · exact hrest
        · exact ih hr hrest

/-! ## Paths that cannot be bound -/

/-- A path cannot be followed further from a value, or nothing can be assigned there. -/
inductive Stops (cx : BindContext) (values : List String) (e : PropertyError) :
    List Segment → Value → Prop
  | step {segment : Segment} {rest : List Segment} {v : Value} :
      v.select cx segment = .error e → Stops cx values e (segment :: rest) v
  | assignment {v : Value} : v.assign cx values = .error e → Stops cx values e [] v

section Errors

variable {values : List String} {path : List Segment} {e : PropertyError}

/-- Binding a path binds the rest of it in the child of its first step. -/
theorem eq_store_of_bind {child : Value} {rest : List Segment}
    {result : Except PropertyError (List ConversionFailure)}
    (hl : (v.filled cx).locate cx segment = .ok (k, child))
    (h : v.bind cx values (segment :: rest) = (w, result)) :
    ∃ new, child.bind cx values rest = (new, result) ∧ w = (v.filled cx).store cx k new := by
  obtain ⟨rfl, hr⟩ := Prod.mk.inj ((descend_of_ok hl).symm.trans h)
  exact ⟨_, Prod.ext rfl hr, rfl⟩

/-- A path that cannot be bound prepares the value, and stops at a value on the way that was there
before exactly if nothing was created. -/
theorem stops_of_bind_error (hc : cx.Sound) (ho : v.Ordered)
    (h : v.bind cx values path = (w, .error e)) :
    w = prepared cx path v ∧ ∃ front rest x, path = front ++ rest ∧ w.resolve front = some x ∧
      Stops cx values e rest x ∧ (w = v ↔ v.resolve front = some x) := by
  induction path generalizing v w with
  | nil =>
    obtain ⟨ha, rfl⟩ := assigned_eq_error h
    exact ⟨rfl, [], [], w, rfl, rfl, .assignment ha, by simp [resolve]⟩
  | cons segment rest ih =>
    cases hl : (v.filled cx).locate cx segment with
    | error e' =>
      rw [bind, descend_of_error hl] at h
      cases h
      refine ⟨(prepared_of_error hl).symm, [], segment :: rest, v.filled cx, rfl, rfl,
        .step (by rw [select_eq, hl]; rfl), by simp [resolve, eq_comm]⟩
    | ok found =>
      obtain ⟨k, child⟩ := found
      obtain ⟨new, hnew, rfl⟩ := eq_store_of_bind hl h
      have hchild := ordered_content? hc (ordered_filled hc ho) (locate_eq_ok_iff.mp hl).2
      obtain ⟨rfl, front, back, x, rfl, hx, hstops, hsame⟩ := ih hchild hnew
      have hresolve : ((v.filled cx).store cx k (prepared cx (front ++ back) child)).resolve
          (segment :: front) = some x := by
        rw [resolve, child?_store hl, Option.bind_some, hx]
      refine ⟨(prepared_of_ok hl).symm, segment :: front, back, x, rfl, hresolve, hstops,
        fun hw => hw ▸ hresolve, fun hv => ?_⟩
      obtain ⟨c, hfound, hrest⟩ := Option.bind_eq_some_iff.mp hv
      obtain ⟨hk, rfl⟩ := held?_of_child? hfound hl
      rw [hsame.mpr hrest, filled_of_child? hfound, store_held ho hk]

/-- **Refused paths.** If a path cannot be bound, all that has changed is that what its steps miss
was created, up to a value at which it stops. No scalar is another one, and nothing has changed at
all exactly if the value at which the path stops was there before. -/
theorem created_of_bind_error (hc : cx.Sound) (ho : v.Ordered)
    (h : v.bind cx values path = (w, .error e)) :
    Created cx path v w ∧
      (∀ q s, v.resolve q = some (.scalar s) → w.resolve q = some (.scalar s)) ∧
      ∃ front rest x, path = front ++ rest ∧ w.resolve front = some x ∧
        Stops cx values e rest x ∧ (w = v ↔ v.resolve front = some x) := by
  obtain ⟨hw, hstops⟩ := stops_of_bind_error hc ho h
  have hcreated : Created cx path v w := hw ▸ created_prepared hc path ho
  exact ⟨hcreated, fun _ _ hq => resolve_of_created hcreated hq, hstops⟩

/-- A colour is submitted to a new order, whose positions have none. The positions that the path
asks for are there afterwards. -/
theorem created_of_bind_error_order :
    ∃ order path w e, Sample.catalogue.fresh? "Order" = some order ∧
      PropertyPath.parse "items[1].colour" = .ok path ∧
      order.bind (Sample.bindContext .builtIn .us) ["red"] path.segments = (w, .error e) ∧
      Created (Sample.bindContext .builtIn .us) path.segments order w ∧
      order.resolve [.property "items", .index "0"] = none ∧
      (w.resolve [.property "items", .index "0"]).isSome := by
  have hc := Sample.sound_bindContext .builtIn .us
  obtain ⟨order, w, e, horder, hbind, hnone, hsome⟩ : ∃ order w e,
      Sample.catalogue.fresh? "Order" = some order ∧
      order.bind (Sample.bindContext .builtIn .us) ["red"]
        [.property "items", .index "1", .property "colour"] = (w, .error e) ∧
      order.resolve [.property "items", .index "0"] = none ∧
      (w.resolve [.property "items", .index "0"]).isSome := ⟨_, _, _, rfl, rfl, rfl, rfl⟩
  have hcreated := (created_of_bind_error hc (hc.ordered "Order" order horder) hbind).1
  exact ⟨order, ⟨"items[1].colour", _⟩, w, e, horder, rfl, hbind, hcreated, hnone, hsome⟩

/-- A name is submitted to rows of numbers, at the second row. It has no names, so that the path
cannot be bound, and there are two empty rows afterwards. -/
theorem exists_bind_error_ne :
    ∃ path e, PropertyPath.parse "[1].name" = .ok path ∧
      (Fields.initial (.sequence (.sequence (Fields.integer .nat8)))).bind
        (Sample.bindContext .builtIn .us) ["9"] path.segments =
          (.sequence (.sequence (Fields.integer .nat8))
            [.sequence (Fields.integer .nat8) [], .sequence (Fields.integer .nat8) []],
            .error e) ∧
      Value.sequence (.sequence (Fields.integer .nat8))
          [.sequence (Fields.integer .nat8) [], .sequence (Fields.integer .nat8) []] ≠
        Fields.initial (.sequence (.sequence (Fields.integer .nat8))) :=
  ⟨⟨"[1].name", [.index "1", .property "name"]⟩, _, rfl, rfl, nofun⟩

end Errors

end Formwork.Value
