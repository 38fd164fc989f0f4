import Formwork.Property.Binding

/-!
# What binding leaves behind

- **Children** (`child?_put`): a child that is put back is the one that is read afterwards.
- **Ends of paths** (`resolve_bind`): after a path was bound, what is read at its end is what the
  assignment made of the value there (`reach`).
-/

namespace Formwork.Value

variable {cx : BindContext}

/-! ## Children -/

theorem keyed?_putEntry (key : MapKey) (v : Value) (entries : List (MapKey × Value)) :
    keyed? key (putEntry key v entries) = some v := by
  induction entries with
  | nil => simp [putEntry, keyed?]
  | cons e rest ih =>
    obtain ⟨k, w⟩ := e
    simp only [putEntry]
    split
    · simp [keyed?]
    · split
      · simp [keyed?]
      · next hne => simpa [keyed?, hne] using ih

theorem field?_putField {name : String} {child : Value} {fields : List (String × Value)}
    (h : field? name fields = some child) (v : Value) :
    field? name (putField name v fields) = some v := by
  induction fields with
  | nil => cases h
  | cons f rest ih =>
    obtain ⟨n, w⟩ := f
    simp only [putField]
    split
    · next he => simp [field?, he]
    · next hne =>
      simp only [field?, if_neg hne] at h ⊢
      exact ih h

/-- A sequence grows as far as an index. -/
theorem length_grown (fresh : Value) (length : Nat) (items : List Value) :
    (grown fresh length items).length = max items.length length := by
  unfold grown
  rw [List.length_append, List.length_replicate]
  omega

theorem child?_put_item {segment : Segment} {element : Schema} {items : List Value} {s : Selection}
    (h : selectItem cx element items segment = .ok s) (w : Value) :
    (s.put w).child? segment = some w := by
  unfold selectItem at h
  cases segment with
  | property name => cases h
  | index key =>
    dsimp only at h
    cases hi : index? key with
    | none =>
      rw [hi] at h
      cases h
    | some i =>
      simp only [hi] at h
      split at h
      · cases h
      · cases hc : items[i]? with
        | some child =>
          rw [hc] at h
          cases h
          have hlt := (List.getElem?_eq_some_iff.mp hc).1
          simp [child?, hi, hlt]
        | none =>
          cases hf : cx.initial? element with
          | none =>
            rw [hc, hf] at h
            cases h
          | some fresh =>
            rw [hc, hf] at h
            cases h
            have hlt : i < (grown fresh (i + 1) items).length := by
              rw [length_grown]
              omega
            simp [child?, hi, hlt]

theorem child?_put_entry {segment : Segment} {kind : MapKind} {element : Schema}
    {entries : List (MapKey × Value)} {s : Selection}
    (h : selectEntry cx kind element entries segment = .ok s) (w : Value) :
    (s.put w).child? segment = some w := by
  unfold selectEntry at h
  cases hk : MapKey.read? kind.key segment.key with
  | none =>
    rw [hk] at h
    cases h
  | some key =>
    simp only [hk] at h
    split at h
    · cases h
      simp [child?, hk, keyed?_putEntry]
    · cases h

theorem child?_put_property {segment : Segment} {d : BeanDescriptor}
    {fields : List (String × Value)} {s : Selection}
    (h : selectProperty d fields segment = .ok s) (w : Value) :
    (s.put w).child? segment = some w := by
  rw [selectProperty_def] at h
  cases hn : d.field? segment.key with
  | none =>
    rw [hn] at h
    cases h
  | some name =>
    simp only [hn] at h
    split at h
    · next child hf =>
      cases h
      simp [child?_bean, hn, field?_putField hf]
    · cases h

/-- A child that is put back is read afterwards. -/
theorem child?_put {segment : Segment} {v : Value} {s : Selection}
    (h : v.select cx segment = .ok s) (w : Value) : (s.put w).child? segment = some w := by
  fun_induction Value.select cx segment v generalizing s with
  | case1 | case2 => cases h
  | case3 v ih | case4 v ih =>
    cases hs : v.select cx segment with
    | error e =>
      rw [hs] at h
      cases h
    | ok t =>
      rw [hs] at h
      cases h
      show (t.put w).child? segment = some w
      exact ih hs
  | case5 element items => exact child?_put_item h w
  | case6 kind element entries => exact child?_put_entry h w
  | case7 d fields => exact child?_put_property h w

/-! ## Ends of paths -/

/-- The value at the end of a path, with what is missing on the way created. -/
def reach (cx : BindContext) : List Segment → Value → Except PropertyError Value
  | [], v => .ok v
  | segment :: rest, v =>
    match (v.filled cx).select cx segment with
    | .error e => .error e
    | .ok s => reach cx rest s.child

/-- What a change answers is what it answers for the value that the path reaches. -/
theorem snd_descend {α : Type} {change : Value → Value × Except PropertyError α}
    {path : List Segment} {v leaf : Value} (h : reach cx path v = .ok leaf) :
    (descend cx change path v).2 = (change leaf).2 := by
  induction path generalizing v with
  | nil =>
    cases h
    rfl
  | cons segment rest ih =>
    rw [reach] at h
    simp only [descend]
    cases hs : (v.filled cx).select cx segment with
    | error e =>
      rw [hs] at h
      cases h
    | ok s =>
      rw [hs] at h
      exact ih h

/-- A change that succeeds is one of the value that the path reaches, and is read at its end. -/
theorem resolve_descend {α : Type} {change : Value → Value × Except PropertyError α}
    {path : List Segment} {v w : Value} {a : α} (h : descend cx change path v = (w, .ok a)) :
    ∃ leaf changed, reach cx path v = .ok leaf ∧ change leaf = (changed, .ok a) ∧
      w.resolve path = some changed := by
  induction path generalizing v w with
  | nil => exact ⟨v, w, rfl, h, rfl⟩
  | cons segment rest ih =>
    simp only [descend] at h
    cases hs : (v.filled cx).select cx segment with
    | error e =>
      rw [hs] at h
      cases h
    | ok s =>
      simp only [hs, Prod.mk.injEq] at h
      obtain ⟨rfl, hr⟩ := h
      obtain ⟨leaf, changed, hreach, hchange, hresolve⟩ :=
        ih (w := (descend cx change rest s.child).1) (Prod.ext rfl hr)
      refine ⟨leaf, changed, by simp [reach, hs, hreach], hchange, ?_⟩
      rw [resolve, child?_put hs, Option.bind_some, hresolve]

theorem assigned_eq_ok {values : List String} {v w : Value} {failures : List ConversionFailure}
    (h : assigned cx values v = (w, .ok failures)) : v.assign cx values = .ok (w, failures) := by
  unfold assigned at h
  split at h
  · next ha =>
    cases h
    exact ha
  · cases h

/-- A refused assignment leaves the value as it is. -/
theorem assigned_eq_error {values : List String} {v w : Value} {e : PropertyError}
    (h : assigned cx values v = (w, .error e)) : v.assign cx values = .error e ∧ w = v := by
  unfold assigned at h
  split at h
  · cases h
  · next ha =>
    cases h
    exact ⟨ha, rfl⟩

/-- After binding, what is read at the end of the path is what was assigned there. -/
theorem resolve_bind {values : List String} {path : List Segment} {v w : Value}
    {failures : List ConversionFailure} (h : v.bind cx values path = (w, .ok failures)) :
    ∃ leaf changed, reach cx path v = .ok leaf ∧
      leaf.assign cx values = .ok (changed, failures) ∧ w.resolve path = some changed := by
  obtain ⟨leaf, changed, hreach, hchange, hresolve⟩ := resolve_descend h
  exact ⟨leaf, changed, hreach, assigned_eq_ok hchange, hresolve⟩

end Formwork.Value
