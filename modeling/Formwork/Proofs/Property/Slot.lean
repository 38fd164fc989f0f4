import Formwork.Proofs.Property.Binding

/-!
# Slots of a value

Each child of a value stands in a slot: an element of a sequence, an entry of a map or a field of a
bean. A step of a path has an address, the slot that it leads to (`Value.address`), and a slot has
a content, the child that stands there or the initial value that would be created
(`Value.content?`). Putting a child into a slot (`Value.store`) obeys the laws of a record:

- **Addresses** (`address_store`): what a slot holds does not matter to where a step leads.
- **Contents** (`content?_store`): a slot holds what was put into it last, and other slots are as
  they were.
- **Order** (`store_store`, `store_comm`): of two children put into one slot the last one stays,
  and those put into two slots may come in any order.

A path goes from slot to slot (`descend_of_ok`), and through options that are filled for it once
(`filled_filled`).
-/

namespace Formwork

/-- A place for one child of a value. -/
inductive Slot where
  | element (i : Nat)
  | entry (key : MapKey)
  | field (name : String)
  deriving DecidableEq

namespace MapKey

variable {a b c : MapKey}

theorem before_irrefl (a : MapKey) : a.before a = false := by
  cases a <;> simp [before]

theorem before_trans (hab : a.before b = true) (hbc : b.before c = true) :
    a.before c = true := by
  cases a <;> cases b <;> cases c <;>
    simp only [before, decide_eq_true_eq, Bool.false_eq_true] at hab hbc ⊢
  · exact String.lt_trans hab hbc
  · omega

theorem before_or_before (h : a ≠ b) : a.before b = true ∨ b.before a = true := by
  cases a with
  | text s =>
    cases b with
    | text t =>
      simp only [before, decide_eq_true_eq]
      rcases Decidable.em (s < t) with hlt | hge
      · exact .inl hlt
      · exact .inr (Std.lt_of_le_of_ne (String.not_lt.mp hge) fun he => h (congrArg text he.symm))
    | integer n => exact .inr rfl
  | integer m =>
    cases b with
    | text t => exact .inl rfl
    | integer n =>
      have hne : m ≠ n := fun he => h (congrArg integer he)
      simp only [before, decide_eq_true_eq]
      omega

theorem not_before_of_before (h : a.before b = true) : b.before a = false := by
  cases hb : b.before a with
  | false => rfl
  | true => rw [← before_irrefl a, before_trans h hb]

end MapKey

namespace Value

/-- The slot that a step of a path leads to, or why it leads to none. -/
def address (cx : BindContext) (segment : Segment) : Value → Except PropertyError Slot
  | scalar s => .error (.notNavigable segment.text s.type.name)
  | absent inner => .error (.uninstantiable inner.name)
  | present v | boxed v => v.address cx segment
  | sequence element _ =>
    match segment with
    | .property _ => .error (.notNavigable segment.text (Schema.sequence element).name)
    | .index key =>
      match index? key with
      | none => .error (.invalidIndex key (Schema.sequence element).name)
      | some i => if cx.maxIndex < i then .error (.indexLimit i cx.maxIndex) else .ok (.element i)
  | map kind element _ =>
    match MapKey.read? kind.key segment.key with
    | none => .error (.invalidIndex segment.key (Schema.map kind element).name)
    | some key => .ok (.entry key)
  | bean d _ =>
    match d.field? segment.key with
    | none => .error (.unknownProperty segment.key d.typeName)
    | some name => .ok (.field name)

/-- The child that stands in a slot. -/
def held? (slot : Slot) : Value → Option Value
  | present v | boxed v => v.held? slot
  | sequence _ items => match slot with
    | .element i => items[i]?
    | _ => none
  | map _ _ entries => match slot with
    | .entry key => keyed? key entries
    | _ => none
  | bean _ fields => match slot with
    | .field name => field? name fields
    | _ => none
  | scalar _ | absent _ => none

/-- The initial value for a slot in which nothing stands yet. -/
def vacancy? (cx : BindContext) (slot : Slot) : Value → Option Value
  | present v | boxed v => v.vacancy? cx slot
  | sequence element _ => match slot with
    | .element _ => cx.initial? element
    | _ => none
  | map _ element _ => match slot with
    | .entry _ => cx.initial? element
    | _ => none
  | scalar _ | absent _ | bean _ _ => none

/-- The child in a slot, created if it is missing. -/
def content? (cx : BindContext) (slot : Slot) (v : Value) : Option Value :=
  (v.held? slot).or (v.vacancy? cx slot)

/-- Why a slot without content has none. -/
def lack (segment : Segment) : Value → PropertyError
  | present v | boxed v => v.lack segment
  | sequence element _ | map _ element _ => .uninstantiable element.name
  | bean d _ => .unknownProperty segment.key d.typeName
  | scalar s => .notNavigable segment.text s.type.name
  | absent inner => .uninstantiable inner.name

/-- The elements of a sequence, with initial values behind them up to a length if there are any. -/
def stretched (cx : BindContext) (element : Schema) (length : Nat) (items : List Value) :
    List Value :=
  match cx.initial? element with
  | none => items
  | some fresh => grown fresh length items

/-- The value with a child in a slot. -/
def store (cx : BindContext) (slot : Slot) : Value → Value → Value
  | present v, child => present (v.store cx slot child)
  | boxed v, child => boxed (v.store cx slot child)
  | sequence element items, child => match slot with
    | .element i => sequence element ((stretched cx element (i + 1) items).set i child)
    | _ => sequence element items
  | map kind element entries, child => match slot with
    | .entry key => map kind element (putEntry key child entries)
    | _ => map kind element entries
  | bean d fields, child => match slot with
    | .field name => bean d (putField name child fields)
    | _ => bean d fields
  | scalar s, _ => scalar s
  | absent inner, _ => absent inner

/-- The slot that a step of a path leads to, with its content. -/
def locate (cx : BindContext) (segment : Segment) (v : Value) :
    Except PropertyError (Slot × Value) :=
  match v.address cx segment with
  | .error e => .error e
  | .ok slot =>
    match v.content? cx slot with
    | none => .error (v.lack segment)
    | some child => .ok (slot, child)

variable {cx : BindContext} {v : Value} {segment : Segment} {k l : Slot}

/-! ## Elements and entries -/

section Sequences

variable {element : Schema} {items : List Value} {i j : Nat}

theorem stretched_of_le {n : Nat} (h : n ≤ items.length) :
    stretched cx element n items = items := by
  unfold stretched
  split
  · rfl
  · simp [grown, Nat.sub_eq_zero_of_le h]

theorem getElem?_stretched_or (n : Nat) :
    (stretched cx element n items)[j]?.or (cx.initial? element) =
      items[j]?.or (cx.initial? element) := by
  unfold stretched
  split
  · next h => rw [h]
  · next fresh h =>
    rw [h, grown, List.getElem?_append, List.getElem?_replicate]
    split
    · rfl
    · next hle =>
      rw [List.getElem?_eq_none (Nat.le_of_not_lt hle)]
      split <;> rfl

theorem lt_length_stretched (h : (items[i]?.or (cx.initial? element)).isSome) :
    i < (stretched cx element (i + 1) items).length := by
  unfold stretched
  split
  · next hn =>
    rw [hn, Option.or_none] at h
    simpa using h
  · rw [length_grown]
    omega

theorem stretched_set {n : Nat} (h : i < items.length) (child : Value) :
    stretched cx element n (items.set i child) = (stretched cx element n items).set i child := by
  unfold stretched
  split
  · rfl
  · simp [grown, List.set_append_left _ _ h]

theorem stretched_stretched (m n : Nat) :
    stretched cx element n (stretched cx element m items) =
      stretched cx element (max m n) items := by
  unfold stretched
  split
  · rfl
  · next fresh _ =>
    simp only [grown, List.append_assoc, List.append_cancel_left_eq, List.length_append,
      List.length_replicate, List.replicate_append_replicate]
    congr 1
    omega

end Sequences

section Entries

variable {key other : MapKey} {entries : List (MapKey × Value)}

theorem keyed?_append (more : List (MapKey × Value)) :
    keyed? key (entries ++ more) = (keyed? key entries).or (keyed? key more) := by
  induction entries with
  | nil => rfl
  | cons e rest ih =>
    obtain ⟨n, w⟩ := e
    grind [keyed?]

theorem keyed?_putEntry_of_ne (h : other ≠ key) (child : Value) :
    keyed? other (putEntry key child entries) = keyed? other entries := by
  induction entries with
  | nil => simp [putEntry, keyed?, Ne.symm h]
  | cons e rest ih =>
    obtain ⟨n, w⟩ := e
    simp only [putEntry]
    split
    · simp [keyed?, Ne.symm h]
    · split
      · next he => simp [keyed?, he, Ne.symm h]
      · simp only [keyed?, ih]

theorem putEntry_putEntry (child new : Value) :
    putEntry key new (putEntry key child entries) = putEntry key new entries := by
  induction entries with
  | nil => simp [putEntry, MapKey.before_irrefl]
  | cons e rest ih =>
    obtain ⟨n, w⟩ := e
    grind [putEntry, MapKey.before_irrefl]

theorem putEntry_comm (h : key ≠ other) (child new : Value) :
    putEntry key child (putEntry other new entries) =
      putEntry other new (putEntry key child entries) := by
  induction entries with
  | nil => grind [putEntry, MapKey.not_before_of_before, MapKey.before_or_before]
  | cons e rest ih =>
    obtain ⟨n, w⟩ := e
    grind [putEntry, MapKey.not_before_of_before, MapKey.before_trans, MapKey.before_or_before]

end Entries

section Fields

variable {name other : String} {fields : List (String × Value)}

theorem field?_append (more : List (String × Value)) :
    field? name (fields ++ more) = (field? name fields).or (field? name more) := by
  induction fields with
  | nil => rfl
  | cons f rest ih =>
    obtain ⟨n, w⟩ := f
    grind [field?]

theorem field?_putField_of_ne (h : other ≠ name) (child : Value) :
    field? other (putField name child fields) = field? other fields := by
  induction fields with
  | nil => rfl
  | cons f rest ih =>
    obtain ⟨n, w⟩ := f
    grind [putField, field?]

theorem putField_putField (child new : Value) :
    putField name new (putField name child fields) = putField name new fields := by
  induction fields with
  | nil => rfl
  | cons f rest ih =>
    obtain ⟨n, w⟩ := f
    grind [putField]

theorem putField_comm (h : name ≠ other) (child new : Value) :
    putField name child (putField other new fields) =
      putField other new (putField name child fields) := by
  induction fields with
  | nil => rfl
  | cons f rest ih =>
    obtain ⟨n, w⟩ := f
    grind [putField]

end Fields

/-! ## Laws of slots -/

/-- Induction through options and boxes, down to a value with slots or without. -/
theorem layers {motive : Value → Prop} (scalar : ∀ s, motive (scalar s))
    (absent : ∀ inner, motive (absent inner)) (present : ∀ v, motive v → motive (present v))
    (boxed : ∀ v, motive v → motive (boxed v))
    (sequence : ∀ element items, motive (sequence element items))
    (map : ∀ kind element entries, motive (map kind element entries))
    (bean : ∀ d fields, motive (bean d fields)) : ∀ v, motive v
  | .scalar s => scalar s
  | .absent inner => absent inner
  | .present v => present v (layers scalar absent present boxed sequence map bean v)
  | .boxed v => boxed v (layers scalar absent present boxed sequence map bean v)
  | .sequence element items => sequence element items
  | .map kind element entries => map kind element entries
  | .bean d fields => bean d fields

theorem address_sequence_eq_ok {element : Schema} {items : List Value}
    (h : (sequence element items).address cx segment = .ok k) :
    ∃ key i, segment = .index key ∧ index? key = some i ∧ i ≤ cx.maxIndex ∧ k = .element i := by
  cases segment with
  | property name => cases h
  | index key =>
    simp only [address] at h
    cases hi : index? key with
    | none =>
      rw [hi] at h
      cases h
    | some i =>
      simp only [hi] at h
      split at h
      · cases h
      · next hmax =>
        cases h
        exact ⟨key, i, rfl, hi, Nat.le_of_not_lt hmax, rfl⟩

theorem address_map_eq_ok {kind : MapKind} {element : Schema} {entries : List (MapKey × Value)}
    (h : (map kind element entries).address cx segment = .ok k) :
    ∃ key, MapKey.read? kind.key segment.key = some key ∧ k = .entry key := by
  simp only [address] at h
  split at h
  · cases h
  · next key hkey =>
    cases h
    exact ⟨key, hkey, rfl⟩

theorem address_bean_eq_ok {d : BeanDescriptor} {fields : List (String × Value)}
    (h : (bean d fields).address cx segment = .ok k) :
    ∃ name, d.field? segment.key = some name ∧ k = .field name := by
  simp only [address] at h
  split at h
  · cases h
  · next name hname =>
    cases h
    exact ⟨name, hname, rfl⟩

/-- Where steps lead does not depend on what the slots hold. -/
theorem address_store (segment : Segment) (child : Value) :
    (v.store cx k child).address cx segment = v.address cx segment := by
  induction v using layers with
  | scalar | absent => rfl
  | present v ih => exact ih
  | boxed v ih => exact ih
  | sequence | map | bean => cases k <;> rfl

theorem lack_store (segment : Segment) (child : Value) :
    (v.store cx k child).lack segment = v.lack segment := by
  induction v using layers with
  | scalar | absent => rfl
  | present v ih => exact ih
  | boxed v ih => exact ih
  | sequence | map | bean => cases k <;> rfl

/-- A slot holds what was put into it last, and other slots are as they were. -/
theorem content?_store (h : (v.content? cx k).isSome) (child : Value) :
    (v.store cx k child).content? cx l = if l = k then some child else v.content? cx l := by
  induction v using layers with
  | scalar s => cases h
  | absent inner => cases h
  | present v ih => exact ih h
  | boxed v ih => exact ih h
  | sequence element items =>
    cases k with
    | entry | field => cases h
    | element i =>
      have hlt := lt_length_stretched h
      cases l with
      | entry | field => rfl
      | element j =>
        show ((stretched cx element (i + 1) items).set i child)[j]?.or (cx.initial? element) = _
        by_cases hij : j = i
        · simp [hij, hlt]
        · rw [List.getElem?_set_ne (Ne.symm hij), getElem?_stretched_or,
            if_neg (by simpa using hij)]
          rfl
  | map kind element entries =>
    cases k with
    | element | field => cases h
    | entry key =>
      cases l with
      | element | field => rfl
      | entry other =>
        show (keyed? other (putEntry key child entries)).or (cx.initial? element) = _
        by_cases hkey : other = key
        · simp [hkey, keyed?_putEntry]
        · rw [keyed?_putEntry_of_ne hkey, if_neg (by simpa using hkey)]
          rfl
  | bean d fields =>
    cases k with
    | element | entry => cases h
    | field name =>
      cases l with
      | element | entry => rfl
      | field other =>
        show (field? other (putField name child fields)).or none = _
        by_cases hname : other = name
        · obtain ⟨old, hold⟩ := Option.isSome_iff_exists.mp h
          have hfield : field? name fields = some old := by
            simpa [content?, held?, vacancy?] using hold
          simp [hname, field?_putField hfield]
        · rw [field?_putField_of_ne hname, if_neg (by simpa using hname)]
          rfl

/-- Of two children put into one slot the last one stays. -/
theorem store_store (h : (v.content? cx k).isSome) (child new : Value) :
    (v.store cx k child).store cx k new = v.store cx k new := by
  induction v using layers with
  | scalar s => rfl
  | absent inner => rfl
  | present v ih => exact congrArg present (ih h)
  | boxed v ih => exact congrArg boxed (ih h)
  | sequence element items =>
    cases k with
    | entry | field => rfl
    | element i =>
      have hlt := lt_length_stretched h
      have hstretched : stretched cx element (i + 1)
          ((stretched cx element (i + 1) items).set i child) =
            (stretched cx element (i + 1) items).set i child :=
        stretched_of_le (by rw [List.length_set]; exact hlt)
      show sequence element _ = sequence element _
      rw [hstretched, List.set_set]
  | map kind element entries =>
    cases k with
    | element | field => rfl
    | entry key => exact congrArg (map kind element) (putEntry_putEntry child new)
  | bean d fields =>
    cases k with
    | element | entry => rfl
    | field name => exact congrArg (bean d) (putField_putField child new)

/-- Children may be put into two slots in any order. -/
theorem store_comm (hk : (v.content? cx k).isSome) (hl : (v.content? cx l).isSome) (hne : k ≠ l)
    (child other : Value) :
    (v.store cx l other).store cx k child = (v.store cx k child).store cx l other := by
  induction v using layers with
  | scalar s => rfl
  | absent inner => rfl
  | present v ih => exact congrArg present (ih hk hl)
  | boxed v ih => exact congrArg boxed (ih hk hl)
  | sequence element items =>
    cases k with
    | entry | field => cases hk
    | element i =>
      cases l with
      | entry | field => cases hl
      | element j =>
        have hij : i ≠ j := fun he => hne (congrArg Slot.element he)
        show sequence element _ = sequence element _
        rw [stretched_set (lt_length_stretched hl), stretched_set (lt_length_stretched hk),
          stretched_stretched, stretched_stretched, Nat.max_comm, List.set_comm _ _ (Ne.symm hij)]
  | map kind element entries =>
    cases k with
    | element | field => cases hk
    | entry key =>
      cases l with
      | element | field => cases hl
      | entry other =>
        exact congrArg (map kind element) (putEntry_comm (fun he => hne (congrArg _ he)) _ _)
  | bean d fields =>
    cases k with
    | element | entry => cases hk
    | field name =>
      cases l with
      | element | entry => cases hl
      | field other =>
        exact congrArg (bean d) (putField_comm (fun he => hne (congrArg _ he)) _ _)

/-! ## Steps -/

theorem selectItem_eq (element : Schema) (items : List Value) (segment : Segment) :
    selectItem cx element items segment =
      ((sequence element items).locate cx segment).map fun found =>
        ⟨found.2, (sequence element items).store cx found.1⟩ := by
  unfold selectItem locate
  cases segment with
  | property name => rfl
  | index key =>
    simp only [address]
    cases index? key with
    | none => rfl
    | some i =>
      by_cases hmax : cx.maxIndex < i
      · simp only [if_pos hmax]
        rfl
      · simp only [if_neg hmax, content?, held?, vacancy?]
        cases hi : items[i]? with
        | some child =>
          have hle : i + 1 ≤ items.length := (List.getElem?_eq_some_iff.mp hi).1
          simp [Except.map, store, stretched_of_le hle]
        | none =>
          cases hf : cx.initial? element with
          | none => rfl
          | some fresh => simp [Except.map, store, stretched, hf]

theorem selectEntry_eq (kind : MapKind) (element : Schema) (entries : List (MapKey × Value))
    (segment : Segment) : selectEntry cx kind element entries segment =
      ((map kind element entries).locate cx segment).map fun found =>
        ⟨found.2, (map kind element entries).store cx found.1⟩ := by
  unfold selectEntry locate
  simp only [address]
  cases MapKey.read? kind.key segment.key with
  | none => rfl
  | some key =>
    simp only [content?, held?, vacancy?]
    cases (keyed? key entries).or (cx.initial? element) with
    | none => rfl
    | some child => rfl

theorem selectProperty_eq (d : BeanDescriptor) (fields : List (String × Value))
    (segment : Segment) : selectProperty d fields segment =
      ((bean d fields).locate cx segment).map fun found =>
        ⟨found.2, (bean d fields).store cx found.1⟩ := by
  rw [selectProperty_def]
  unfold locate
  simp only [address]
  cases d.field? segment.key with
  | none => rfl
  | some name =>
    simp only [content?, held?, vacancy?, Option.or_none]
    cases field? name fields with
    | none => rfl
    | some child => rfl

/-- Choosing a child is finding its slot. -/
theorem select_eq : v.select cx segment =
    (v.locate cx segment).map fun found => ⟨found.2, v.store cx found.1⟩ := by
  induction v using layers with
  | scalar s => rfl
  | absent inner => rfl
  | present v ih =>
    rw [select, ih]
    show _ = (v.locate cx segment).map _
    cases v.locate cx segment <;> rfl
  | boxed v ih =>
    rw [select, ih]
    show _ = (v.locate cx segment).map _
    cases v.locate cx segment <;> rfl
  | sequence element items => exact selectItem_eq element items segment
  | map kind element entries => exact selectEntry_eq kind element entries segment
  | bean d fields => exact selectProperty_eq d fields segment

theorem locate_eq_ok_iff {child : Value} : v.locate cx segment = .ok (k, child) ↔
    v.address cx segment = .ok k ∧ v.content? cx k = some child := by
  unfold locate
  cases v.address cx segment with
  | error e => simp
  | ok l =>
    constructor
    · intro h
      cases hc : v.content? cx l with
      | none =>
        simp only [hc] at h
        cases h
      | some c =>
        simp only [hc] at h
        cases h
        exact ⟨rfl, hc⟩
    · rintro ⟨hl, hc⟩
      cases hl
      simp only [hc]

theorem isSome_content?_of_locate {child : Value} (h : v.locate cx segment = .ok (k, child)) :
    (v.content? cx k).isSome := by
  rw [(locate_eq_ok_iff.mp h).2]
  rfl

/-- Putting a child into a slot changes where steps lead only as far as this child goes. -/
theorem locate_store (h : (v.content? cx k).isSome) (child : Value) :
    (v.store cx k child).locate cx segment =
      (v.locate cx segment).map fun found =>
        (found.1, if found.1 = k then child else found.2) := by
  unfold locate
  rw [address_store, lack_store]
  cases v.address cx segment with
  | error e => rfl
  | ok l =>
    simp only [content?_store h]
    by_cases hlk : l = k
    · obtain ⟨old, hold⟩ := Option.isSome_iff_exists.mp h
      simp [hlk, hold, Except.map]
    · simp only [if_neg hlk]
      cases v.content? cx l with
      | none => rfl
      | some c => simp [Except.map, hlk]

/-! ## Filled options -/

/-- A value with addresses has no absent option in front of them. -/
theorem filled_of_address (h : v.address cx segment = .ok k) : v.filled cx = v := by
  induction v using layers with
  | absent inner => cases h
  | present v ih => exact congrArg present (ih h)
  | boxed v ih => exact congrArg boxed (ih h)
  | scalar | sequence | map | bean => rfl

theorem filled_store {old : Value} (h : v.locate cx segment = .ok (k, old)) (child : Value) :
    (v.store cx k child).filled cx = v.store cx k child := by
  have ha : (v.store cx k child).address cx segment = .ok k := by
    rw [address_store]
    exact (locate_eq_ok_iff.mp h).1
  exact filled_of_address ha

/-! ## Paths -/

section Paths

variable {α : Type} {change : Value → Value × Except PropertyError α} {rest : List Segment}

theorem descend_of_error {e : PropertyError} (h : (v.filled cx).locate cx segment = .error e) :
    descend cx change (segment :: rest) v = (v.filled cx, .error e) := by
  simp only [descend, select_eq, h, Except.map]

/-- A step of a path changes the content of the slot that it leads to. -/
theorem descend_of_ok {child : Value} (h : (v.filled cx).locate cx segment = .ok (k, child)) :
    descend cx change (segment :: rest) v =
      ((v.filled cx).store cx k (descend cx change rest child).1,
        (descend cx change rest child).2) := by
  simp only [descend, select_eq, h, Except.map]

end Paths

end Value

end Formwork
