import Formwork.Proofs.Property.Ordered

/-!
# Paths that part

Two paths diverge in a value if they go through the same children up to steps that do not select
the same child (`Value.Diverge`). Changes at their ends do not get in each other's way:

- **Order** (`descend_comm`): two changes at the ends of diverging paths may be made in any order,
  and each of them gives what it gives alone.
- **Stability** (`diverge_descend`): whether two paths diverge does not depend on what was changed
  at the end of a third one that diverges from both.
-/

namespace Formwork.Value

variable {cx : BindContext} {v : Value} {s t u : Segment} {p q r : List Segment}

/-- Two steps select the same child of a value whose options are filled for it. -/
def SameChild (cx : BindContext) (s t : Segment) (v : Value) : Prop :=
  ∃ found, (v.filled cx).locate cx s = .ok found ∧ (v.filled cx).locate cx t = .ok found

/-- Two paths select the same children of a value up to steps that do not. -/
inductive Diverge (cx : BindContext) : List Segment → List Segment → Value → Prop
  | here {s t : Segment} {p q : List Segment} {v : Value} :
      ¬ SameChild cx s t v → Diverge cx (s :: p) (t :: q) v
  | deeper {s t : Segment} {p q : List Segment} {v child : Value} {k : Slot} :
      (v.filled cx).locate cx s = .ok (k, child) → (v.filled cx).locate cx t = .ok (k, child) →
      Diverge cx p q child → Diverge cx (s :: p) (t :: q) v

theorem Diverge.symm (h : Diverge cx p q v) : Diverge cx q p v := by
  induction h with
  | here hne => exact .here fun ⟨found, ht, hs⟩ => hne ⟨found, hs, ht⟩
  | deeper hs ht _ ih => exact .deeper ht hs ih

/-- A slot has one content. -/
theorem eq_of_locate {k : Slot} {c d : Value} (hs : v.locate cx s = .ok (k, c))
    (ht : v.locate cx t = .ok (k, d)) : c = d :=
  Option.some.inj ((locate_eq_ok_iff.mp hs).2.symm.trans (locate_eq_ok_iff.mp ht).2)

theorem slot_ne {k l : Slot} {c d : Value} (h : ¬ SameChild cx s t v)
    (hs : (v.filled cx).locate cx s = .ok (k, c)) (ht : (v.filled cx).locate cx t = .ok (l, d)) :
    k ≠ l := by
  rintro rfl
  exact h ⟨(k, c), hs, by rw [eq_of_locate hs ht]; exact ht⟩

theorem not_sameChild_of_address {k l : Slot} (hs : (v.filled cx).address cx s = .ok k)
    (ht : (v.filled cx).address cx t = .ok l) (h : k ≠ l) : ¬ SameChild cx s t v := by
  rintro ⟨⟨m, child⟩, hs', ht'⟩
  have hk := Except.ok.inj (hs.symm.trans (locate_eq_ok_iff.mp hs').1)
  have hl := Except.ok.inj (ht.symm.trans (locate_eq_ok_iff.mp ht').1)
  exact h (hk.trans hl.symm)

/-- Paths that diverge behind steps to the same child diverge in the child. -/
theorem diverge_of_sameChild {k : Slot} {child : Value} (h : Diverge cx (s :: p) (t :: q) v)
    (hs : (v.filled cx).locate cx s = .ok (k, child))
    (ht : (v.filled cx).locate cx t = .ok (k, child)) : Diverge cx p q child := by
  cases h with
  | here hne => exact absurd ⟨(k, child), hs, ht⟩ hne
  | deeper hs' _ h =>
    rw [hs] at hs'
    cases hs'
    exact h

/-- What a path reaches, as a change at its end that changes nothing. -/
theorem reach_eq (path : List Segment) (v : Value) :
    reach cx path v = (descend cx (fun x => (x, .ok x)) path v).2 := by
  induction path generalizing v with
  | nil => rfl
  | cons segment rest ih =>
    simp only [reach, descend]
    cases (v.filled cx).select cx segment with
    | error e => rfl
    | ok selection => exact ih selection.child

/-! ## Steps after a change -/

section Changes

variable {α β : Type} {f : Value → Value × Except PropertyError α}
  {g : Value → Value × Except PropertyError β}

/-- Filling the options first makes no difference to a path with a step. -/
theorem descend_filled (hc : cx.Sound) :
    descend cx f (s :: p) (v.filled cx) = descend cx f (s :: p) v := by
  simp only [descend, filled_filled hc]

theorem filled_descend (hc : cx.Sound) :
    (descend cx f (s :: p) v).1.filled cx = (descend cx f (s :: p) v).1 := by
  cases hs : (v.filled cx).locate cx s with
  | error e => rw [descend_of_error hs, filled_filled hc]
  | ok found => rw [descend_of_ok hs, filled_store hs]

/-- A step that leads nowhere leads nowhere after a change. -/
theorem locate_descend_of_error {e : PropertyError} (ht : (v.filled cx).locate cx t = .error e) :
    (descend cx f (s :: p) v).1.locate cx t = .error e := by
  cases hs : (v.filled cx).locate cx s with
  | error e' => rw [descend_of_error hs, ht]
  | ok found =>
    rw [descend_of_ok hs, locate_store (isSome_content?_of_locate hs), ht]
    rfl

/-- After a change below one slot, a step finds what it found, or the changed child. -/
theorem locate_descend_of_ok {k l : Slot} {c d : Value}
    (hs : (v.filled cx).locate cx s = .ok (k, c)) (ht : (v.filled cx).locate cx t = .ok (l, d)) :
    (descend cx f (s :: p) v).1.locate cx t =
      .ok (l, if l = k then (descend cx f p c).1 else d) := by
  rw [descend_of_ok hs, locate_store (isSome_content?_of_locate hs), ht]
  rfl

/-- Where a step leads after a change, it led before. -/
theorem exists_locate_of_descend {l : Slot} {d : Value}
    (h : (descend cx f (s :: p) v).1.locate cx t = .ok (l, d)) :
    ∃ c, (v.filled cx).locate cx t = .ok (l, c) := by
  cases ht : (v.filled cx).locate cx t with
  | error e =>
    rw [locate_descend_of_error ht] at h
    cases h
  | ok found =>
    obtain ⟨m, c⟩ := found
    cases hs : (v.filled cx).locate cx s with
    | error e =>
      rw [descend_of_error hs, ht] at h
      cases h
      exact ⟨_, rfl⟩
    | ok found =>
      rw [locate_descend_of_ok hs ht] at h
      cases h
      exact ⟨_, rfl⟩

theorem sameChild_of_descend (hc : cx.Sound)
    (h : SameChild cx s t (descend cx f (u :: r) v).1) : SameChild cx s t v := by
  obtain ⟨⟨k, child⟩, hs, ht⟩ := h
  rw [filled_descend hc] at hs ht
  obtain ⟨c, hs⟩ := exists_locate_of_descend hs
  obtain ⟨d, ht⟩ := exists_locate_of_descend ht
  exact ⟨(k, c), hs, by rw [eq_of_locate hs ht]; exact ht⟩

/-- **Order.** Two changes at the ends of diverging paths may be made in any order, and each of
them gives what it gives alone. -/
theorem descend_comm (hc : cx.Sound) (h : Diverge cx p q v) :
    (descend cx g q (descend cx f p v).1).2 = (descend cx g q v).2 ∧
      (descend cx g q (descend cx f p v).1).1 = (descend cx f p (descend cx g q v).1).1 := by
  induction h with
  | @here s t p q v hne =>
    cases hs : (v.filled cx).locate cx s with
    | error e =>
      have hafter : ((descend cx g (t :: q) v).1.filled cx).locate cx s = .error e := by
        rw [filled_descend hc, locate_descend_of_error hs]
      rw [descend_of_error hs, descend_filled hc, descend_of_error hafter, filled_descend hc]
      exact ⟨rfl, rfl⟩
    | ok found =>
      obtain ⟨k, c⟩ := found
      cases ht : (v.filled cx).locate cx t with
      | error e =>
        have hafter : ((descend cx f (s :: p) v).1.filled cx).locate cx t = .error e := by
          rw [filled_descend hc, locate_descend_of_error ht]
        rw [descend_of_error ht, descend_filled hc, descend_of_error hafter, filled_descend hc]
        exact ⟨rfl, rfl⟩
      | ok found' =>
        obtain ⟨l, d⟩ := found'
        have hkl := slot_ne hne hs ht
        have ht' : ((descend cx f (s :: p) v).1.filled cx).locate cx t = .ok (l, d) := by
          rw [filled_descend hc, locate_descend_of_ok hs ht, if_neg (Ne.symm hkl)]
        have hs' : ((descend cx g (t :: q) v).1.filled cx).locate cx s = .ok (k, c) := by
          rw [filled_descend hc, locate_descend_of_ok ht hs, if_neg hkl]
        rw [descend_of_ok ht', descend_of_ok hs', filled_descend hc, filled_descend hc,
          descend_of_ok hs, descend_of_ok ht]
        exact ⟨rfl, (store_comm (isSome_content?_of_locate hs) (isSome_content?_of_locate ht) hkl
          _ _).symm⟩
  | @deeper s t p q v child k hs ht _ ih =>
    obtain ⟨ihr, ihv⟩ := ih
    have ht' : ((descend cx f (s :: p) v).1.filled cx).locate cx t =
        .ok (k, (descend cx f p child).1) := by
      rw [filled_descend hc, locate_descend_of_ok hs ht, if_pos rfl]
    have hs' : ((descend cx g (t :: q) v).1.filled cx).locate cx s =
        .ok (k, (descend cx g q child).1) := by
      rw [filled_descend hc, locate_descend_of_ok ht hs, if_pos rfl]
    rw [descend_of_ok ht', descend_of_ok hs', filled_descend hc, filled_descend hc,
      descend_of_ok hs, descend_of_ok ht]
    have hsome := isSome_content?_of_locate hs
    exact ⟨ihr, by rw [store_store hsome, store_store hsome, ihv]⟩

/-- **Stability.** Two paths diverge after a change at the end of a third one that diverges from
both of them. -/
theorem diverge_descend (hc : cx.Sound) (h : Diverge cx p q v) (hp : Diverge cx r p v)
    (hq : Diverge cx r q v) : Diverge cx p q (descend cx f r v).1 := by
  induction h generalizing r with
  | @here s t p q v hne =>
    cases hp <;> exact .here fun hsame => hne (sameChild_of_descend hc hsame)
  | @deeper s t p q v child k hs ht h ih =>
    obtain ⟨u, r, rfl⟩ : ∃ u r', r = u :: r' := by cases hp <;> exact ⟨_, _, rfl⟩
    cases hu : (v.filled cx).locate cx u with
    | error e =>
      rw [descend_of_error hu]
      rw [← filled_filled hc] at hs ht
      exact .deeper hs ht h
    | ok found =>
      obtain ⟨l, x⟩ := found
      have hs' := locate_descend_of_ok (f := f) (p := r) hu hs
      have ht' := locate_descend_of_ok (f := f) (p := r) hu ht
      rw [← filled_descend hc] at hs' ht'
      by_cases hkl : k = l
      · subst hkl
        obtain rfl := eq_of_locate hs hu
        rw [if_pos rfl] at hs' ht'
        exact .deeper hs' ht' (ih (diverge_of_sameChild hp hu hs) (diverge_of_sameChild hq hu ht))
      · rw [if_neg hkl] at hs' ht'
        exact .deeper hs' ht' h

/-- What a path reaches does not depend on what was changed at the end of one that diverges from
it. -/
theorem reach_descend (hc : cx.Sound) (h : Diverge cx p q v) :
    reach cx q (descend cx f p v).1 = reach cx q v := by
  rw [reach_eq, reach_eq]
  exact (descend_comm hc h).1

/-- A path diverges from itself only where it leads nowhere. -/
theorem exists_error_of_diverge (h : Diverge cx p p v) : ∃ e, (descend cx f p v).2 = .error e := by
  induction p generalizing v with
  | nil => cases h
  | cons s rest ih =>
    cases hs : (v.filled cx).locate cx s with
    | error e => exact ⟨e, by rw [descend_of_error hs]⟩
    | ok found =>
      rw [descend_of_ok hs]
      exact ih (diverge_of_sameChild h hs hs)

end Changes

end Formwork.Value
