import Formwork.Proofs.Sample.Catalogue

/-!
# Indexes beyond the end

A path that goes on at an index of a sequence may leave elements out. `Value.Grows` says what
becomes of the elements: the sequence has those that the index needs, new ones are initial values,
and the rest of the path is bound in one element.

- **Elements** (`grows_iff`): the elements afterwards are the old ones, continued as far as the
  index, with the bound element in its place.
- **Sequences** (`bind_sequence_iff`): binding at an index succeeds iff the index is admitted and
  the elements grow in this way.
- **Depth** (`bind_sparse_index`): so does a sequence anywhere in a value, behind options and boxes
  that the path fills as well.
-/

namespace Formwork.Value

variable {cx : BindContext} {values : List String} {rest : List Segment}
  {failures : List ConversionFailure} {element : Schema} {items after : List Value} {key : String}
  {k : Nat} {v w : Value}

/-- The elements of a sequence before and after the rest of a path was bound at an index. -/
structure Grows (cx : BindContext) (values : List String) (rest : List Segment)
    (failures : List ConversionFailure) (element : Schema) (k : Nat) (items after : List Value) :
    Prop where
  length : after.length = max items.length (k + 1)
  kept : ∀ i, i < items.length → i ≠ k → after[i]? = items[i]?
  filler : ∀ i, items.length ≤ i → i < k →
    ∃ fresh, cx.initial? element = some fresh ∧ after[i]? = some fresh
  bound : ∃ old new, items[k]?.or (cx.initial? element) = some old ∧ after[k]? = some new ∧
    old.bind cx values rest = (new, .ok failures)

/-- The type of the elements and the elements of a sequence, also of one behind options and
boxes. -/
def elements? : Value → Option (Schema × List Value)
  | present v | boxed v => v.elements?
  | sequence element items => some (element, items)
  | scalar _ | absent _ | map _ _ _ | bean _ _ => none

/-! ## Elements -/

theorem getElem?_stretched {fresh : Value} (h : cx.initial? element = some fresh) (n i : Nat) :
    (stretched cx element n items)[i]? =
      if i < items.length then items[i]? else if i < n then some fresh else none := by
  rw [stretched, h]
  show (items ++ List.replicate (n - items.length) fresh)[i]? = _
  rw [List.getElem?_append, List.getElem?_replicate]
  split
  · rfl
  · next hi =>
    have hn : i - items.length < n - items.length ↔ i < n := by omega
    simp only [hn]

theorem length_stretched {old : Value}
    (h : items[k]?.or (cx.initial? element) = some old) :
    (stretched cx element (k + 1) items).length = max items.length (k + 1) := by
  cases hf : cx.initial? element with
  | none =>
    rw [hf, Option.or_none] at h
    have hlt : k < items.length := (List.getElem?_eq_some_iff.mp h).1
    rw [stretched_of_le hlt]
    omega
  | some fresh =>
    rw [stretched, hf]
    exact length_grown ..

theorem grows_set {old new : Value} (hold : items[k]?.or (cx.initial? element) = some old)
    (hnew : old.bind cx values rest = (new, .ok failures)) :
    Grows cx values rest failures element k items
      ((stretched cx element (k + 1) items).set k new) := by
  have hlength := length_stretched hold
  refine ⟨by rw [List.length_set, hlength], fun i hi hne => ?_, fun i hle hlt => ?_,
    old, new, hold, ?_, hnew⟩
  · rw [List.getElem?_set_ne (Ne.symm hne)]
    by_cases hk : k < items.length
    · rw [stretched_of_le hk]
    · rw [List.getElem?_eq_none (by omega), Option.none_or] at hold
      rw [getElem?_stretched hold, if_pos hi]
  · rw [List.getElem?_eq_none (by omega), Option.none_or] at hold
    refine ⟨old, hold, ?_⟩
    rw [List.getElem?_set_ne (by omega), getElem?_stretched hold, if_neg (by omega),
      if_pos (by omega)]
  · rw [List.getElem?_set_self (by omega)]

/-- The elements of a sequence are known from how they grow. -/
theorem grows_iff : Grows cx values rest failures element k items after ↔
    ∃ old new, items[k]?.or (cx.initial? element) = some old ∧
      old.bind cx values rest = (new, .ok failures) ∧
      after = (stretched cx element (k + 1) items).set k new := by
  constructor
  · rintro ⟨hlength, hkept, hfiller, old, new, hold, hk, hnew⟩
    refine ⟨old, new, hold, hnew, ?_⟩
    have hset : Grows cx values rest failures element k items
        ((stretched cx element (k + 1) items).set k new) := grows_set hold hnew
    obtain ⟨hlength', hkept', hfiller', old', new', hold', hk', hnew'⟩ := hset
    obtain rfl := Option.some.inj (hold.symm.trans hold')
    obtain rfl := (Prod.mk.inj (hnew.symm.trans hnew')).1
    apply List.ext_getElem?
    intro i
    rcases Nat.lt_trichotomy i k with hlt | rfl | hgt
    · by_cases hi : i < items.length
      · rw [hkept i hi (by omega), hkept' i hi (by omega)]
      · obtain ⟨fresh, hf, hat⟩ := hfiller i (by omega) hlt
        obtain ⟨fresh', hf', hat'⟩ := hfiller' i (by omega) hlt
        rw [hat, hat', ← hf, ← hf']
    · rw [hk, hk']
    · by_cases hi : i < items.length
      · rw [hkept i hi (by omega), hkept' i hi (by omega)]
      · rw [List.getElem?_eq_none (by omega), List.getElem?_eq_none (by omega)]
  · rintro ⟨old, new, hold, hnew, rfl⟩
    exact grows_set hold hnew

/-! ## Sequences -/

theorem locate_of_elements? (h : v.elements? = some (element, items)) (segment : Segment) :
    v.locate cx segment = (sequence element items).locate cx segment := by
  induction v using layers with
  | scalar | absent | map | bean => cases h
  | present v ih => exact ih h
  | boxed v ih => exact ih h
  | sequence =>
    cases h
    rfl

theorem elements?_store (h : v.elements? = some (element, items)) (i : Nat) (child : Value) :
    (v.store cx (.element i) child).elements? =
      some (element, (stretched cx element (i + 1) items).set i child) := by
  induction v using layers with
  | scalar | absent | map | bean => cases h
  | present v ih => exact ih h
  | boxed v ih => exact ih h
  | sequence =>
    cases h
    rfl

theorem locate_sequence_eq_ok_iff (hi : index? key = some k) {l : Slot} {old : Value} :
    (sequence element items).locate cx (.index key) = .ok (l, old) ↔
      k ≤ cx.maxIndex ∧ l = .element k ∧ items[k]?.or (cx.initial? element) = some old := by
  rw [locate_eq_ok_iff]
  constructor
  · rintro ⟨ha, hcontent⟩
    obtain ⟨key', i, hkey, hi', hmax, rfl⟩ := address_sequence_eq_ok ha
    obtain rfl := Segment.index.inj hkey
    obtain rfl := Option.some.inj (hi.symm.trans hi')
    exact ⟨hmax, rfl, hcontent⟩
  · rintro ⟨hmax, rfl, hold⟩
    refine ⟨?_, hold⟩
    simp only [address, hi, if_neg (Nat.not_lt.mpr hmax)]

/-- Binding at an index of a sequence, also of one behind options and boxes. -/
theorem bind_elements?_iff (hs : (v.filled cx).elements? = some (element, items))
    (hi : index? key = some k) :
    v.bind cx values (.index key :: rest) = (w, .ok failures) ↔
      k ≤ cx.maxIndex ∧ ∃ old new, items[k]?.or (cx.initial? element) = some old ∧
        old.bind cx values rest = (new, .ok failures) ∧
        w = (v.filled cx).store cx (.element k) new := by
  constructor
  · intro h
    cases hl : (v.filled cx).locate cx (.index key) with
    | error e =>
      rw [bind, descend_of_error hl] at h
      cases h
    | ok found =>
      obtain ⟨l, old⟩ := found
      rw [bind, descend_of_ok hl] at h
      obtain ⟨rfl, hresult⟩ := Prod.mk.inj h
      rw [locate_of_elements? hs, locate_sequence_eq_ok_iff hi] at hl
      obtain ⟨hmax, rfl, hold⟩ := hl
      exact ⟨hmax, old, (old.bind cx values rest).1, hold, Prod.ext rfl hresult, rfl⟩
  · rintro ⟨hmax, old, new, hold, hnew, rfl⟩
    have hl : (v.filled cx).locate cx (.index key) = .ok (.element k, old) := by
      rw [locate_of_elements? hs, locate_sequence_eq_ok_iff hi]
      exact ⟨hmax, rfl, hold⟩
    have hnew : descend cx (assigned cx values) rest old = (new, .ok failures) := hnew
    rw [bind, descend_of_ok hl, hnew]

/-- Binding at an index of a sequence succeeds iff the index is admitted and the elements grow as
far as it needs. -/
theorem bind_sequence_iff (hi : index? key = some k) :
    (sequence element items).bind cx values (.index key :: rest) = (w, .ok failures) ↔
      k ≤ cx.maxIndex ∧ ∃ after, w = .sequence element after ∧
        Grows cx values rest failures element k items after := by
  rw [bind_elements?_iff (v := sequence element items) rfl hi]
  refine and_congr_right fun _ => ?_
  simp only [grows_iff]
  constructor
  · rintro ⟨old, new, hold, hnew, rfl⟩
    exact ⟨_, rfl, old, new, hold, hnew, rfl⟩
  · rintro ⟨_, rfl, old, new, hold, hnew, rfl⟩
    exact ⟨old, new, hold, hnew, rfl⟩

/-! ## Depth -/

/-- Going along two paths is going along the second one at the end of the first. -/
theorem descend_append {α : Type} (change : Value → Value × Except PropertyError α)
    (front back : List Segment) (v : Value) :
    descend cx change (front ++ back) v = descend cx (descend cx change back) front v := by
  induction front generalizing v with
  | nil => rfl
  | cons segment front ih => simp only [List.cons_append, descend, ih]

/-- **Sparse indexes.** The rest of a path is bound at an index of a sequence iff the index is
admitted and the rest is bound in the element there, or in an initial one behind the end. Then the
sequence has the elements that the index needs and no more: all others are as they were, or initial
values. This is so at any depth, and whatever failures the conversion at the end of the path has. -/
theorem bind_sparse_index (hi : index? key = some k) (cx : BindContext) (values : List String)
    (rest : List Segment) (failures : List ConversionFailure) (element : Schema)
    (items : List Value) :
    (∀ w, (sequence element items).bind cx values (.index key :: rest) = (w, .ok failures) ↔
      k ≤ cx.maxIndex ∧ ∃ after, w = .sequence element after ∧
        Grows cx values rest failures element k items after) ∧
    ∀ front v w u, reach cx front v = .ok u →
      (u.filled cx).elements? = some (element, items) →
      v.bind cx values (front ++ .index key :: rest) = (w, .ok failures) →
      ∃ changed after, w.resolve front = some changed ∧
        changed.elements? = some (element, after) ∧
        Grows cx values rest failures element k items after := by
  refine ⟨fun w => bind_sequence_iff hi, fun front v w u hu hs h => ?_⟩
  rw [bind, descend_append] at h
  obtain ⟨leaf, changed, hreach, hchange, hresolve⟩ := resolve_descend h
  obtain rfl := Except.ok.inj (hu.symm.trans hreach)
  obtain ⟨-, old, new, hold, hnew, rfl⟩ := (bind_elements?_iff hs hi).mp hchange
  exact ⟨_, _, hresolve, elements?_store hs k new, grows_set hold hnew⟩

/-- The third position of an order gets a quantity that is none. The order has three positions
then, all of them new. -/
theorem bind_sparse_index_order :
    let cx := Sample.bindContext .builtIn .us
    ∃ order position w changed after, Sample.catalogue.fresh? "Order" = some order ∧
      Sample.catalogue.fresh? "LineItem" = some position ∧
      order.bind cx ["many"] [.property "items", .index "2", .property "quantity"] =
        (w, .ok [⟨"many", invalidNumber⟩]) ∧
      w.resolve [.property "items"] = some changed ∧
      changed.elements? = some (.bean "LineItem", after) ∧ after.length = 3 ∧
      after[0]? = some position ∧ after[1]? = some position := by
  intro cx
  obtain ⟨order, position, u, w, horder, hposition, hreach, hitems, hbind⟩ :
      ∃ order position u w, Sample.catalogue.fresh? "Order" = some order ∧
        Sample.catalogue.fresh? "LineItem" = some position ∧
        reach cx [.property "items"] order = .ok u ∧
        (u.filled cx).elements? = some (.bean "LineItem", []) ∧
        order.bind cx ["many"] [.property "items", .index "2", .property "quantity"] =
          (w, .ok [⟨"many", invalidNumber⟩]) := ⟨_, _, _, _, rfl, rfl, rfl, rfl, rfl⟩
  have hi : index? "2" = some 2 := rfl
  obtain ⟨changed, after, hresolve, helements, hgrows⟩ :=
    (bind_sparse_index hi cx ["many"] [.property "quantity"] [⟨"many", invalidNumber⟩]
      (.bean "LineItem") []).2 [.property "items"] order w u hreach hitems hbind
  have hnew : ∀ i, i < 2 → after[i]? = some position := by
    intro i hlt
    obtain ⟨fresh, hf, hat⟩ := hgrows.filler i (Nat.zero_le i) hlt
    obtain rfl := Option.some.inj (hposition.symm.trans hf)
    exact hat
  exact ⟨order, position, w, changed, after, horder, hposition, hbind, hresolve, helements,
    hgrows.length, hnew 0 (by decide), hnew 1 (by decide)⟩

end Formwork.Value
