import Formwork.Proofs.Property.ReadBack

/-!
# How long sequences get

Slots lead to the places of a value (`Value.inPlace?`), and a sequence in a place has a length
(`Value.lengthAt?`). A value is limited (`Value.Limited`) if its sequences keep to a limit, but for
those that are as long in a new bean.

- **Values** (`limited_iff`): a value is limited if its own sequence and its children are.
- **Steps** (`limited_store`): a sequence grows only as far as an index that is admitted.
- **Assignments** (`limited_assignment`): a sequence that is assigned has an element for each
  submitted value at most.
- **Paths** (`limited_bind`): binding a path keeps a value limited, whatever comes of it.
-/

namespace Formwork.Value

variable {cx : BindContext} {v : Value} {k : Slot} {n limit : Nat}

/-! ## Places -/

/-- The value in the place that slots lead to. -/
def inPlace? : List Slot → Value → Option Value
  | [], v => some v
  | k :: place, v => (v.held? k).bind (inPlace? place)

/-- The length of a sequence, also of one behind options and boxes. -/
def length? : Value → Option Nat
  | present v | boxed v => v.length?
  | sequence _ items => some items.length
  | scalar _ | absent _ | map _ _ _ | bean _ _ => none

/-- The type of a bean, also of one behind options and boxes. -/
def beanType? : Value → Option BeanId
  | present v | boxed v => v.beanType?
  | bean d _ => some d.id
  | scalar _ | absent _ | sequence _ _ | map _ _ _ => none

/-- The length of the sequence in a place. -/
def lengthAt? (place : List Slot) (v : Value) : Option Nat := (v.inPlace? place).bind length?

/-- A bean around a place has a sequence of this length in the place when it is new. -/
def FromOwner (cx : BindContext) (v : Value) (place : List Slot) (n : Nat) : Prop :=
  ∃ front rest owner type fresh, place = front ++ rest ∧ v.inPlace? front = some owner ∧
    owner.beanType? = some type ∧ cx.freshBean type = some fresh ∧ fresh.lengthAt? rest = some n

theorem lengthAt?_cons (place : List Slot) :
    v.lengthAt? (k :: place) = (v.held? k).bind (lengthAt? place) := by
  unfold lengthAt?
  rw [inPlace?, Option.bind_assoc]

/-- What is as long in a new bean is so in the value itself, if it is one, or in its child. -/
theorem fromOwner_cons {place : List Slot} : v.FromOwner cx (k :: place) n ↔
    (∃ type fresh, v.beanType? = some type ∧ cx.freshBean type = some fresh ∧
      fresh.lengthAt? (k :: place) = some n) ∨
    ∃ child, v.held? k = some child ∧ child.FromOwner cx place n := by
  constructor
  · rintro ⟨front, rest, owner, type, fresh, hplace, howner, ht, hf, hn⟩
    cases front with
    | nil =>
      cases howner
      exact .inl ⟨type, fresh, ht, hf, by rwa [hplace]⟩
    | cons l front =>
      obtain ⟨rfl, rfl⟩ := List.cons.inj hplace
      obtain ⟨child, hchild, howner⟩ := Option.bind_eq_some_iff.mp howner
      exact .inr ⟨child, hchild, front, rest, owner, type, fresh, rfl, howner, ht, hf, hn⟩
  · rintro (⟨type, fresh, ht, hf, hn⟩ |
      ⟨child, hchild, front, rest, owner, type, fresh, rfl, howner, ht, hf, hn⟩)
    · exact ⟨[], k :: place, v, type, fresh, rfl, rfl, ht, hf, hn⟩
    · exact ⟨k :: front, rest, owner, type, fresh, rfl, by rw [inPlace?, hchild]; exact howner, ht,
        hf, hn⟩

/-- A bean is no sequence, when it is new either. -/
theorem not_fromOwner_nil (hc : cx.Sound) : ¬ v.FromOwner cx [] n := by
  rintro ⟨front, rest, owner, type, fresh, hplace, -, -, hf, hn⟩
  obtain ⟨-, rfl⟩ := List.append_eq_nil_iff.mp hplace.symm
  obtain ⟨d, fields, rfl, -⟩ := hc.typed type fresh hf
  cases hn

/-! ## Limited values -/

/-- The sequences in a value have at most a number of elements, or are as long as is given for
their places, or as long as in a new bean. -/
def Limited (cx : BindContext) (limit : Nat) (given : List Slot → Nat → Prop) (v : Value) : Prop :=
  ∀ place n, v.lengthAt? place = some n →
    n ≤ limit ∨ given place n ∨ v.FromOwner cx place n

/-- The lengths that are given for the places of a child, if the value has a type and lengths are
given for its own places. -/
def passed (cx : BindContext) (type? : Option BeanId) (given : List Slot → Nat → Prop) (k : Slot)
    (place : List Slot) (n : Nat) : Prop :=
  given (k :: place) n ∨ ∃ type fresh, type? = some type ∧ cx.freshBean type = some fresh ∧
    fresh.lengthAt? (k :: place) = some n

variable {given : List Slot → Nat → Prop}

theorem limited_iff (hc : cx.Sound) : v.Limited cx limit given ↔
    (∀ n, v.length? = some n → n ≤ limit ∨ given [] n) ∧
      ∀ k child, v.held? k = some child →
        child.Limited cx limit (passed cx v.beanType? given k) := by
  constructor
  · intro h
    refine ⟨fun n hn => ?_, fun k child hk place n hn => ?_⟩
    · rcases h [] n hn with hle | hgiven | hfresh
      · exact .inl hle
      · exact .inr hgiven
      · exact absurd hfresh (not_fromOwner_nil hc)
    · rcases h (k :: place) n (by rw [lengthAt?_cons, hk]; exact hn) with hle | hgiven | hfresh
      · exact .inl hle
      · exact .inr (.inl (.inl hgiven))
      · rcases fromOwner_cons.mp hfresh with hself | ⟨child', hk', hfresh⟩
        · exact .inr (.inl (.inr hself))
        · obtain rfl := Option.some.inj (hk.symm.trans hk')
          exact .inr (.inr hfresh)
  · rintro ⟨hself, hchildren⟩ place n hn
    cases place with
    | nil =>
      rcases hself n hn with hle | hgiven
      · exact .inl hle
      · exact .inr (.inl hgiven)
    | cons k place =>
      rw [lengthAt?_cons] at hn
      obtain ⟨child, hk, hn⟩ := Option.bind_eq_some_iff.mp hn
      rcases hchildren k child hk place n hn with hle | (hgiven | hfresh) | hfresh
      · exact .inl hle
      · exact .inr (.inl hgiven)
      · exact .inr (.inr (fromOwner_cons.mpr (.inl hfresh)))
      · exact .inr (.inr (fromOwner_cons.mpr (.inr ⟨child, hk, hfresh⟩)))

theorem limited_present (hc : cx.Sound) :
    (present v).Limited cx limit given ↔ v.Limited cx limit given :=
  (limited_iff hc).trans (limited_iff (v := v) hc).symm

theorem limited_boxed (hc : cx.Sound) :
    (boxed v).Limited cx limit given ↔ v.Limited cx limit given :=
  (limited_iff hc).trans (limited_iff (v := v) hc).symm

/-- A value without elements and children is limited. -/
theorem limited_of_bare (hc : cx.Sound) (hn : ∀ n, v.length? = some n → n = 0)
    (hk : ∀ k, v.held? k = none) : v.Limited cx limit given := by
  refine (limited_iff hc).mpr ⟨fun n h => .inl ?_, fun k child h => ?_⟩
  · rw [hn n h]
    exact Nat.zero_le _
  · rw [hk k] at h
    cases h

theorem limited_scalar (hc : cx.Sound) (s : Scalar) : (scalar s).Limited cx limit given :=
  limited_of_bare hc nofun fun _ => rfl

theorem limited_absent (hc : cx.Sound) (inner : Schema) :
    (absent inner).Limited cx limit given :=
  limited_of_bare hc nofun fun _ => rfl

/-- A new bean is as long as a new bean. -/
theorem limited_freshBean (hc : cx.Sound) {id : BeanId} (h : cx.freshBean id = some v) :
    v.Limited cx limit given := by
  intro place n hn
  obtain ⟨d, fields, rfl, hd⟩ := hc.typed id v h
  exact .inr (.inr ⟨[], place, _, id, _, rfl, rfl, congrArg some hd, h, hn⟩)

/-- Initial values are limited. -/
theorem limited_initial (hc : cx.Sound) {s : Schema} (h : cx.initial? s = some v) :
    v.Limited cx limit given := by
  induction s generalizing v with
  | scalar t =>
    obtain ⟨x, -, rfl⟩ := Option.map_eq_some_iff.mp h
    exact limited_scalar hc x
  | option inner =>
    cases h
    exact limited_absent hc inner
  | box inner ih =>
    obtain ⟨x, hx, rfl⟩ := Option.map_eq_some_iff.mp h
    exact (limited_boxed hc).mpr (ih hx)
  | sequence element =>
    cases h
    exact limited_of_bare hc (fun n hn => (Option.some.inj hn).symm) fun k => by cases k <;> rfl
  | map kind element =>
    cases h
    exact limited_of_bare hc nofun fun k => by cases k <;> rfl
  | bean id => exact limited_freshBean hc h

theorem limited_filled? (hc : cx.Sound) {s : Schema} (h : cx.filled? s = some v) :
    v.Limited cx limit given := by
  induction s generalizing v with
  | option inner ih =>
    simp only [BindContext.filled?, Option.some.injEq] at h
    subst h
    cases hf : cx.filled? inner with
    | none => exact limited_absent hc inner
    | some x => exact (limited_present hc).mpr (ih hf)
  | box inner ih =>
    obtain ⟨x, hx, rfl⟩ := Option.map_eq_some_iff.mp h
    exact (limited_boxed hc).mpr (ih hx)
  | scalar | sequence | map | bean => exact limited_initial hc h

theorem limited_filled (hc : cx.Sound) (h : v.Limited cx limit given) :
    (v.filled cx).Limited cx limit given := by
  induction v using layers with
  | absent inner =>
    cases hf : cx.filled? inner with
    | none =>
      simp only [filled, hf]
      exact h
    | some x =>
      simp only [filled, hf]
      exact (limited_present hc).mpr (limited_filled? hc hf)
  | present v ih => exact (limited_present hc).mpr (ih ((limited_present hc).mp h))
  | boxed v ih => exact (limited_boxed hc).mpr (ih ((limited_boxed hc).mp h))
  | scalar | sequence | map | bean => exact h

/-! ## Steps -/

theorem beanType?_store (child : Value) : (v.store cx k child).beanType? = v.beanType? := by
  induction v using layers with
  | scalar | absent => rfl
  | present v ih => exact ih
  | boxed v ih => exact ih
  | sequence | map | bean => cases k <;> rfl

/-- A sequence grows only as far as an index that is admitted. -/
theorem length?_store {segment : Segment} {child : Value} (ha : v.address cx segment = .ok k)
    (h : (v.store cx k child).length? = some n) : v.length? = some n ∨ n ≤ cx.maxIndex + 1 := by
  induction v using layers with
  | scalar | absent => cases ha
  | present v ih => exact ih ha h
  | boxed v ih => exact ih ha h
  | sequence element items =>
    obtain ⟨key, i, -, -, hmax, rfl⟩ := address_sequence_eq_ok ha
    replace h : ((stretched cx element (i + 1) items).set i child).length = n := Option.some.inj h
    rw [List.length_set, stretched] at h
    split at h
    · exact .inl (congrArg some h)
    · rw [length_grown] at h
      rcases Nat.le_total (i + 1) items.length with hle | hle
      · exact .inl (congrArg some ((Nat.max_eq_left hle).symm.trans h))
      · rw [Nat.max_eq_right hle] at h
        exact .inr (by omega)
  | map kind element entries =>
    obtain ⟨key, -, rfl⟩ := address_map_eq_ok ha
    cases h
  | bean d fields =>
    obtain ⟨name, -, rfl⟩ := address_bean_eq_ok ha
    cases h

/-- The children after a child was put into a slot: this one, those that were there, and initial
values. -/
theorem held?_store {child c : Value} {l : Slot} (hk : (v.content? cx k).isSome)
    (h : (v.store cx k child).held? l = some c) :
    (l = k ∧ c = child) ∨ v.held? l = some c ∨ ∃ type, cx.initial? type = some c := by
  have hcontent : (v.store cx k child).content? cx l = some c := by
    rw [content?, h, Option.some_or]
  rw [content?_store hk] at hcontent
  split at hcontent
  · next hlk => exact .inl ⟨hlk, (Option.some.inj hcontent).symm⟩
  · rcases Option.or_eq_some_iff.mp hcontent with hheld | ⟨-, hvacant⟩
    · exact .inr (.inl hheld)
    · exact .inr (.inr (initial?_of_vacancy? hvacant))

section Steps

variable {segment : Segment} {child : Value}

theorem limited_content? (hc : cx.Sound) (h : v.Limited cx limit given)
    (hk : v.content? cx k = some child) :
    child.Limited cx limit (passed cx v.beanType? given k) := by
  rcases Option.or_eq_some_iff.mp hk with hheld | ⟨-, hvacant⟩
  · exact ((limited_iff hc).mp h).2 k child hheld
  · obtain ⟨type, hf⟩ := initial?_of_vacancy? hvacant
    exact limited_initial hc hf

/-- Putting a limited child into a slot that a step leads to. -/
theorem limited_store {new : Value} (hc : cx.Sound) (hlimit : cx.maxIndex < limit)
    (h : v.Limited cx limit given) (hl : v.locate cx segment = .ok (k, child))
    (hnew : new.Limited cx limit (passed cx v.beanType? given k)) :
    (v.store cx k new).Limited cx limit given := by
  obtain ⟨hself, hchildren⟩ := (limited_iff hc).mp h
  refine (limited_iff hc).mpr ⟨fun n hn => ?_, fun l c hheld => ?_⟩
  · rcases length?_store (locate_eq_ok_iff.mp hl).1 hn with hn | hle
    · exact hself n hn
    · exact .inl (by omega)
  · rw [beanType?_store]
    rcases held?_store (isSome_content?_of_locate hl) hheld with ⟨rfl, rfl⟩ | hheld | ⟨type, hf⟩
    · exact hnew
    · exact hchildren l c hheld
    · exact limited_initial hc hf

end Steps

/-! ## Assignments -/

/-- A sequence that is assigned has an element for each submitted value at most. -/
theorem limited_assignment (hc : cx.Sound) {s : Schema} {values : List String} {w : Value}
    (hlimit : values.length ≤ limit) (h : cx.assignment s values = .ok (.replaced w)) :
    w.Limited cx limit given := by
  induction s generalizing values w given with
  | scalar t =>
    simp only [BindContext.assignment, BindContext.assignScalar] at h
    split at h
    · cases h
    · split at h <;> cases h
      exact limited_scalar hc _
  | option inner ih =>
    simp only [BindContext.assignment] at h
    split at h
    · cases h
      exact limited_absent hc inner
    · cases hf : cx.initial? inner with
      | none =>
        rw [hf] at h
        cases h
      | some fresh =>
        simp only [hf] at h
        obtain ⟨a, ha, he⟩ := map_eq_ok.mp h
        cases a with
        | unchanged =>
          cases he
          exact (limited_present hc).mpr (limited_initial hc hf)
        | replaced x =>
          cases he
          exact (limited_present hc).mpr (ih hlimit ha)
        | failed l => cases he
  | box inner ih =>
    obtain ⟨a, ha, he⟩ := map_eq_ok.mp h
    cases a with
    | replaced x =>
      cases he
      exact (limited_boxed hc).mpr (ih hlimit ha)
    | unchanged | failed l => cases he
  | sequence element ih =>
    simp only [BindContext.assignment] at h
    split at h
    · cases h
      exact limited_of_bare hc (fun n hn => (Option.some.inj hn).symm) fun k => by cases k <;> rfl
    · cases h
    · next submitted fresh hne hf _ =>
      obtain ⟨parts, hp, he⟩ := map_eq_ok.mp h
      unfold assignedItems at he
      dsimp only at he
      split at he
      · cases he
        have hlength : parts.length ≤ limit := by
          rw [length_of_mapM_eq_ok hp]
          exact Nat.le_trans (List.length_filter_le ..) hlimit
        refine (limited_iff hc).mpr ⟨fun n hn => .inl ?_, fun k x hx => ?_⟩
        · obtain rfl := Option.some.inj hn
          exact Nat.le_trans (List.length_filterMap_le ..) hlength
        · cases k with
          | entry | field => cases hx
          | element i =>
            obtain ⟨a, ha, hx⟩ := List.mem_filterMap.mp (List.mem_of_getElem? hx)
            obtain ⟨text, -, htext⟩ := exists_of_mem_mapM hp ha
            have hone : [text].length ≤ limit :=
              Nat.le_trans (List.length_pos_of_mem ha) hlength
            cases a with
            | unchanged =>
              cases hx
              exact limited_initial hc hf
            | replaced y =>
              cases hx
              exact ih hone htext
            | failed l => cases hx
      · cases he
  | map kind element ih => cases h
  | bean name => cases h

theorem limited_assigned (hc : cx.Sound) {values : List String} (hlimit : values.length ≤ limit)
    (h : v.Limited cx limit given) : (assigned cx values v).1.Limited cx limit given := by
  unfold assigned
  split
  · next w failures hassign =>
    obtain ⟨a, ha, he⟩ := map_eq_ok.mp hassign
    cases a with
    | replaced x =>
      cases he
      exact limited_assignment hc hlimit ha
    | unchanged | failed l =>
      cases he
      exact h
  · exact h

/-! ## Paths -/

/-- A change that keeps values limited does so at the end of a path. -/
theorem limited_descend {α : Type} (hc : cx.Sound) (hmax : cx.maxIndex < limit)
    {change : Value → Value × Except PropertyError α}
    (hchange : ∀ (given : List Slot → Nat → Prop) (v : Value), v.Limited cx limit given →
      (change v).1.Limited cx limit given)
    {path : List Segment} (h : v.Limited cx limit given) :
    (descend cx change path v).1.Limited cx limit given := by
  -- The lengths that are given for a child are those of the beans around it.
  induction path generalizing v given with
  | nil => exact hchange given v h
  | cons segment rest ih =>
    have hfilled := limited_filled hc h
    cases hl : (v.filled cx).locate cx segment with
    | error e =>
      rw [descend_of_error hl]
      exact hfilled
    | ok found =>
      obtain ⟨k, child⟩ := found
      rw [descend_of_ok hl]
      exact limited_store hc hmax hfilled hl
        (ih (limited_content? hc hfilled (locate_eq_ok_iff.mp hl).2))

/-- Binding a path keeps a value limited, whatever comes of it. -/
theorem limited_bind (hc : cx.Sound) (hmax : cx.maxIndex < limit) {values : List String}
    (hlimit : values.length ≤ limit) (path : List Segment) (h : v.Limited cx limit given) :
    (v.bind cx values path).1.Limited cx limit given :=
  limited_descend hc hmax (fun _ _ hv => limited_assigned hc hlimit hv) h

end Formwork.Value
