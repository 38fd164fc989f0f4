import Mathlib.Data.List.Basic

/-!
# Two ways to put a list together

Where one list is put together in two ways, an element between the parts of one way is in one of the
parts of the other way (`append_eq_append_cons`). Of two elements, one is the other or stands in
front of it (`front_or_same_or_behind`).
-/

namespace Formwork

variable {α : Type} {a b : α}

/-- An element of two parts put together is one of the first part or one of the second. -/
theorem append_eq_append_cons {first second front back : List α}
    (h : first ++ second = front ++ a :: back) :
    (∃ more, first = front ++ a :: more ∧ back = more ++ second) ∨
      ∃ more, front = first ++ more ∧ second = more ++ a :: back := by
  rcases List.append_eq_append_iff.mp h with ⟨more, hfront, hsecond⟩ | ⟨more, hfirst, hback⟩
  · exact .inr ⟨more, hfront, hsecond⟩
  · cases more with
    | nil => exact .inr ⟨[], by simpa using hfirst.symm, by simpa using hback.symm⟩
    | cons x more =>
      obtain ⟨rfl, hmore⟩ := List.cons.inj hback
      exact .inl ⟨more, hfirst, hmore⟩

/-- Two elements of a list are the same one, or one is in front of the other. -/
theorem front_or_same_or_behind {ls ks ls' ks' : List α} (h : ls ++ a :: ks = ls' ++ b :: ks') :
    (a ∈ ls' ∧ b ∈ ks) ∨ a = b ∨ (b ∈ ls ∧ a ∈ ks') := by
  rcases append_eq_append_cons h with ⟨between, rfl, rfl⟩ | ⟨between, rfl, hrest⟩
  · exact .inr (.inr ⟨by simp, by simp⟩)
  · cases between with
    | nil => exact .inr (.inl (List.cons.inj hrest).1)
    | cons c between =>
      obtain ⟨rfl, rfl⟩ := List.cons.inj hrest
      exact .inl ⟨by simp, by simp⟩

end Formwork
