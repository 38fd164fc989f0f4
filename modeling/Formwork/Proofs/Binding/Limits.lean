import Formwork.Proofs.Binding.Independence
import Formwork.Proofs.Property.Growth

/-!
# The limit of indexes

- **Sequences** (`limited_bindParameters`): after all parameters of a request, a sequence is no
  longer than the limit of indexes admits, or than a parameter has values, or than it is in a new
  bean.
- **Refusals** (`bind_eq_indexLimit_iff`): a parameter is refused for its index exactly if its path
  asks a sequence for an index beyond the limit. The sequence stays as it was
  (`resolve_bind_of_asksFor`).
- **Maps** (`select_map_maxIndex`): the limit does not matter to the keys of maps.
-/

namespace Formwork

namespace Value

variable {cx : BindContext} {v x : Value} {segment : Segment} {i limit : Nat}

/-! ## Refusals -/

/-- A value of which a length is known has no absent option in front of its elements. -/
theorem filled_of_length? {n : Nat} (h : v.length? = some n) : v.filled cx = v := by
  induction v using layers with
  | absent inner => cases h
  | present v ih => exact congrArg present (ih h)
  | boxed v ih => exact congrArg boxed (ih h)
  | scalar | sequence | map | bean => rfl

theorem selectItem_eq_indexLimit_iff (element : Schema) (items : List Value) :
    selectItem cx element items segment = .error (.indexLimit i limit) ↔
      limit = cx.maxIndex ∧ cx.maxIndex < i ∧
        ∃ key, segment = .index key ∧ index? key = some i := by
  constructor
  · intro h
    unfold selectItem at h
    cases segment with
    | property name => cases h
    | index key =>
      cases hi : index? key with
      | none => simp [hi] at h
      | some j =>
        simp only [hi] at h
        split at h
        · next hlt =>
          cases h
          exact ⟨rfl, hlt, key, rfl, hi⟩
        · split at h <;> cases h
  · rintro ⟨rfl, hlt, key, rfl, hi⟩
    simp only [selectItem, hi, if_pos hlt]

/-- A step is refused for its index exactly if it asks a sequence for one beyond the limit. -/
theorem select_eq_indexLimit_iff : v.select cx segment = .error (.indexLimit i limit) ↔
    limit = cx.maxIndex ∧ cx.maxIndex < i ∧ v.length?.isSome ∧
      ∃ key, segment = .index key ∧ index? key = some i := by
  induction v using layers with
  | scalar | absent => simp [select, length?]
  | present v ih =>
    rw [select, map_eq_error]
    exact ih
  | boxed v ih =>
    rw [select, map_eq_error]
    exact ih
  | sequence element items =>
    rw [select, selectItem_eq_indexLimit_iff]
    simp [length?]
  | map kind element entries =>
    refine iff_of_false (fun h => ?_) (by simp [length?])
    rw [select, selectEntry] at h
    split at h
    · cases h
    · split at h <;> cases h
  | bean d fields =>
    refine iff_of_false (fun h => ?_) (by simp [length?])
    rw [select, selectProperty_def] at h
    split at h
    · cases h
    · split at h <;> cases h

/-- No assignment is refused for an index. -/
theorem assignment_ne_indexLimit (s : Schema) (values : List String) :
    cx.assignment s values ≠ .error (.indexLimit i limit) := by
  intro h
  induction s generalizing values with
  | scalar t =>
    simp only [BindContext.assignment, BindContext.assignScalar] at h
    split at h
    · cases h
    · split at h <;> cases h
  | option inner ih =>
    simp only [BindContext.assignment] at h
    split at h
    · cases h
    · split at h
      · cases h
      · exact ih values (map_eq_error.mp h)
  | box inner ih => exact ih values (map_eq_error.mp h)
  | sequence element ih =>
    simp only [BindContext.assignment] at h
    split at h
    · cases h
    · cases h
    · obtain ⟨text, -, htext⟩ := exists_of_mapM_eq_error (map_eq_error.mp h)
      exact ih [text] htext
  | map | bean => cases h

/-- What a path does with a value is what its end does with the value that its front reaches. -/
theorem resolve_of_reach {α : Type} {change : Value → Value × Except PropertyError α}
    {front : List Segment} (rest : List Segment) (h : reach cx front v = .ok x) :
    (descend cx change (front ++ rest) v).1.resolve front = some (descend cx change rest x).1 ∧
      (descend cx change (front ++ rest) v).2 = (descend cx change rest x).2 := by
  induction front generalizing v with
  | nil =>
    cases h
    exact ⟨rfl, rfl⟩
  | cons segment front ih =>
    simp only [reach] at h
    cases hs : (v.filled cx).select cx segment with
    | error e =>
      rw [hs] at h
      cases h
    | ok s =>
      simp only [hs] at h
      obtain ⟨hresolve, hresult⟩ := ih h
      simp only [List.cons_append, descend, hs, resolve, child?_put hs, Option.bind_some]
      exact ⟨hresolve, hresult⟩

/-- What a path reaches is what is read at its end, if that is there. -/
theorem eq_of_reach {front : List Segment} {old : Value} (h : reach cx front v = .ok x)
    (hold : v.resolve front = some old) : x = old := by
  induction front generalizing v with
  | nil =>
    cases h
    cases hold
    rfl
  | cons segment front ih =>
    obtain ⟨child, hchild, hrest⟩ := Option.bind_eq_some_iff.mp hold
    simp only [reach, select_eq] at h
    cases hl : (v.filled cx).locate cx segment with
    | error e =>
      rw [hl] at h
      cases h
    | ok found =>
      obtain ⟨k, child'⟩ := found
      obtain ⟨-, rfl⟩ := held?_of_child? hchild hl
      rw [hl] at h
      exact ih h hrest

/-- The index of a path that a sequence on its way is asked for. -/
def AsksFor (cx : BindContext) (v : Value) (path front : List Segment) (x : Value) (i : Nat) :
    Prop :=
  ∃ key rest, path = front ++ .index key :: rest ∧ reach cx front v = .ok x ∧
    (x.filled cx).length?.isSome ∧ index? key = some i

/-- A path is refused for an index exactly if it asks a sequence for one beyond the limit. -/
theorem bind_eq_indexLimit_iff {values : List String} {path : List Segment} :
    (v.bind cx values path).2 = .error (.indexLimit i limit) ↔
      limit = cx.maxIndex ∧ cx.maxIndex < i ∧ ∃ front x, AsksFor cx v path front x i := by
  constructor
  · intro h
    induction path generalizing v with
    | nil =>
      obtain ⟨w, hw⟩ : ∃ w, assigned cx values v = (w, .error (.indexLimit i limit)) :=
        ⟨_, Prod.ext rfl h⟩
      have hassign := (assigned_eq_error hw).1
      rw [Value.assign, map_eq_error] at hassign
      exact absurd hassign (assignment_ne_indexLimit _ _)
    | cons segment rest ih =>
      simp only [bind, descend] at h
      cases hs : (v.filled cx).select cx segment with
      | error e =>
        simp only [hs, Except.error.injEq] at h
        subst h
        obtain ⟨rfl, hlt, hlength, key, rfl, hi⟩ := select_eq_indexLimit_iff.mp hs
        exact ⟨rfl, hlt, [], v, key, rest, rfl, rfl, hlength, hi⟩
      | ok s =>
        simp only [hs] at h
        obtain ⟨hlimit, hlt, front, x, key, back, rfl, hreach, hlength, hi⟩ := ih h
        exact ⟨hlimit, hlt, segment :: front, x, key, back, rfl, by simp [reach, hs, hreach],
          hlength, hi⟩
  · rintro ⟨rfl, hlt, front, x, key, rest, rfl, hreach, hlength, hi⟩
    have hs : (x.filled cx).select cx (.index key) = .error (.indexLimit i cx.maxIndex) :=
      select_eq_indexLimit_iff.mpr ⟨rfl, hlt, hlength, key, rfl, hi⟩
    rw [bind, (resolve_of_reach _ hreach).2]
    simp only [descend, hs]

/-- The sequence that is asked for an index beyond the limit stays as it was. -/
theorem resolve_bind_of_asksFor {values : List String} {path front : List Segment}
    (h : AsksFor cx v path front x i) (hlt : cx.maxIndex < i) :
    (v.bind cx values path).1.resolve front = some (x.filled cx) ∧
      ∀ old, v.resolve front = some old → old.length?.isSome → x.filled cx = old := by
  obtain ⟨key, rest, rfl, hreach, hlength, hi⟩ := h
  have hs : (x.filled cx).select cx (.index key) = .error (.indexLimit i cx.maxIndex) :=
    select_eq_indexLimit_iff.mpr ⟨rfl, hlt, hlength, key, rfl, hi⟩
  constructor
  · rw [bind, (resolve_of_reach _ hreach).1]
    simp only [descend, hs]
  · intro old hold hn
    obtain rfl := eq_of_reach hreach hold
    obtain ⟨n, hn⟩ := Option.isSome_iff_exists.mp hn
    exact filled_of_length? hn

/-! ## Maps -/

theorem initial?_maxIndex (cx : BindContext) (s : Schema) (limit : Nat) :
    ({ cx with maxIndex := limit }).initial? s = cx.initial? s := by
  induction s with
  | box inner ih => simp only [BindContext.initial?, ih]
  | scalar | option | sequence | map | bean => rfl

/-- The limit does not matter to the keys of maps. -/
theorem select_map_maxIndex (cx : BindContext) (kind : MapKind) (element : Schema)
    (entries : List (MapKey × Value)) (segment : Segment) (limit : Nat) :
    (map kind element entries).select { cx with maxIndex := limit } segment =
      (map kind element entries).select cx segment := by
  rw [select, select, selectEntry, selectEntry, initial?_maxIndex]

end Value

/-! ## Requests -/

variable {cx : BindContext}

/-- The greatest number of values of a parameter. -/
def mostValues (parameters : List (String × List String)) : Nat :=
  (parameters.map (·.2.length)).foldr max 0

theorem length_le_mostValues {parameters : List (String × List String)}
    {p : String × List String} (h : p ∈ parameters) : p.2.length ≤ mostValues parameters := by
  induction parameters with
  | nil => cases h
  | cons q rest ih =>
    rcases List.mem_cons.mp h with rfl | h
    · exact Nat.le_max_left ..
    · exact Nat.le_trans (ih h) (Nat.le_max_right ..)

section Requests

variable {limit : Nat} {given : List Slot → Nat → Prop}

theorem outcome_eq_refused_iff {name : String} {values : List String} {bean : Value}
    {e : PropertyError} : (bindParameter cx name values bean).2 = .refused (.property name e) ↔
      ∃ path, PropertyPath.parse name = .ok path ∧
        (bean.bind cx values path.segments).2 = .error e := by
  unfold bindParameter
  cases PropertyPath.parse name with
  | error e' => simp
  | ok path =>
    rcases hb : bean.bind cx values path.segments with ⟨w, e' | _ | _⟩ <;> simp [hb]

theorem limited_bindParameter (hc : cx.Sound) (hmax : cx.maxIndex < limit) {name : String}
    {values : List String} (hlimit : values.length ≤ limit) {bean : Value}
    (h : bean.Limited cx limit given) :
    (bindParameter cx name values bean).1.Limited cx limit given := by
  unfold bindParameter
  split
  · exact h
  · next path _ =>
    have hbound := Value.limited_bind hc hmax hlimit path.segments h
    split <;> next hb => rwa [hb] at hbound

/-- One parameter after the other keeps a bean limited. -/
theorem limited_foldl_bindNext (hc : cx.Sound) (hmax : cx.maxIndex < limit)
    {entries : List (String × List String)} (hlimit : ∀ p ∈ entries, p.2.length ≤ limit)
    {state : Value × BindingReport} (h : state.1.Limited cx limit given) :
    (entries.foldl (bindNext cx) state).1.Limited cx limit given := by
  induction entries generalizing state with
  | nil => exact h
  | cons p rest ih =>
    obtain ⟨hp, hrest⟩ := List.forall_mem_cons.mp hlimit
    exact ih hrest (limited_bindParameter hc hmax (by rwa [List.length_map]) h)

/-- After a request, a sequence is no longer than the limit of indexes admits, or than a parameter
has values, or than it was before, or than it is in a new bean. -/
theorem limited_bindParameters (hc : cx.Sound) (skip : String → Bool)
    (entries : List (String × List String)) (bean : Value) :
    (bindParameters cx skip entries bean).1.Limited cx
      (max (cx.maxIndex + 1) (mostValues entries))
      fun place n => bean.lengthAt? place = some n := by
  refine limited_foldl_bindNext hc (Nat.lt_of_lt_of_le (Nat.lt_succ_self _) (Nat.le_max_left ..))
    (fun p hp => ?_) fun place n hn => .inr (.inl hn)
  exact Nat.le_trans (length_le_mostValues (List.mem_of_mem_filter hp)) (Nat.le_max_right ..)

end Requests

/-- **The limit.** After a request, each sequence in the bean has at most as many elements as the
limit of indexes admits, or as the parameter with the most values has values, or as many as it had
in the new bean that it started from, or as it has in a new bean of the type of a bean around it.

A parameter is refused for an index exactly if its path asks a sequence for one beyond the limit.
Then this sequence stays as it was; behind an option that was absent it is the one that the path
created. The keys of a map may be any. -/
theorem bindParameters_limited (hc : cx.Sound) :
    (∀ skip entries bean place n,
      (bindParameters cx skip entries bean).1.lengthAt? place = some n →
      n ≤ max (cx.maxIndex + 1) (mostValues entries) ∨ bean.lengthAt? place = some n ∨
        (bindParameters cx skip entries bean).1.FromOwner cx place n) ∧
    (∀ name values bean i limit, (bindParameter cx name values bean).2 =
        .refused (.property name (.indexLimit i limit)) ↔
      limit = cx.maxIndex ∧ cx.maxIndex < i ∧ ∃ path front x,
        PropertyPath.parse name = .ok path ∧ Value.AsksFor cx bean path.segments front x i) ∧
    (∀ name values bean path front x i, PropertyPath.parse name = .ok path →
      Value.AsksFor cx bean path.segments front x i → cx.maxIndex < i →
      (bindParameter cx name values bean).1.resolve front = some (x.filled cx) ∧
        ∀ old, bean.resolve front = some old → old.length?.isSome → x.filled cx = old) ∧
    ∀ kind element entries segment limit,
      (Value.map kind element entries).select { cx with maxIndex := limit } segment =
        (Value.map kind element entries).select cx segment := by
  refine ⟨fun skip entries bean => limited_bindParameters hc skip entries bean,
    fun name values bean i limit => ?_, fun name values bean path front x i hp ha hlt => ?_,
    Value.select_map_maxIndex cx⟩
  · rw [outcome_eq_refused_iff]
    constructor
    · rintro ⟨path, hp, hb⟩
      obtain ⟨hlimit, hlt, front, x, ha⟩ := Value.bind_eq_indexLimit_iff.mp hb
      exact ⟨hlimit, hlt, path, front, x, hp, ha⟩
    · rintro ⟨hlimit, hlt, path, front, x, hp, ha⟩
      exact ⟨path, hp, Value.bind_eq_indexLimit_iff.mpr ⟨hlimit, hlt, front, x, ha⟩⟩
  · rw [bindParameter_fst hp]
    exact Value.resolve_bind_of_asksFor ha hlt

/-- The context of orders with few elements. -/
def fewElements : BindContext := { Sample.bindContext .builtIn .us with maxIndex := 2 }

/-- Quantities of an order, and the name of a position. -/
def quantityParameters : List (String × List String) :=
  [("quantities", ["1", "2", "3", "4"]), ("items[2].name", ["Pen"])]

/-- A new order has one quantity, and a fourth one is refused. Four quantities are taken together,
and there are no longer sequences in the order. -/
theorem bindParameters_limited_order :
    (∀ place n,
      (bindParameters fewElements (fun _ => false) quantityParameters newOrder).1.lengthAt? place =
        some n →
      n ≤ 4 ∨ newOrder.lengthAt? place = some n ∨
        (bindParameters fewElements (fun _ => false) quantityParameters newOrder).1.FromOwner
          fewElements place n) ∧
    (bindParameter fewElements "quantities[3]" ["1"] newOrder).2 =
      .refused (.property "quantities[3]" (.indexLimit 3 2)) ∧
    (bindParameter fewElements "quantities[3]" ["1"] newOrder).1.resolve [.property "quantities"] =
      newOrder.resolve [.property "quantities"] := by
  have hc : fewElements.Sound :=
    ⟨(Sample.sound_bindContext .builtIn .us).typed, (Sample.sound_bindContext .builtIn .us).ordered⟩
  have hp : PropertyPath.parse "quantities[3]" =
      .ok ⟨"quantities[3]", [.property "quantities", .index "3"]⟩ := rfl
  have ha : Value.AsksFor fewElements newOrder [.property "quantities", .index "3"]
      [.property "quantities"] _ 3 := ⟨"3", [], rfl, rfl, rfl, rfl⟩
  obtain ⟨hgrowth, hrefused, hstays, -⟩ := bindParameters_limited hc
  refine ⟨hgrowth _ _ _, (hrefused _ _ _ _ _).mpr ⟨rfl, by decide, _, _, _, hp, ha⟩, ?_⟩
  obtain ⟨hresolve, hsame⟩ := hstays "quantities[3]" ["1"] newOrder _ _ _ 3 hp ha (by decide)
  rw [hresolve, hsame _ rfl rfl]
  rfl

end Formwork
