import Mathlib.Data.List.Induction
import Mathlib.Data.List.Nodup

/-!
# Names in the order of their first use

`List.eraseDups` keeps the first of equal elements. A last element is kept iff it is new
(`eraseDups_concat_of_mem`, `eraseDups_concat_of_not_mem`), and what is kept is distinct
(`nodup_eraseDups`).
-/

namespace Formwork

variable {α : Type} [BEq α] [LawfulBEq α]

theorem eraseDups_concat_of_mem {l : List α} {a : α} (h : a ∈ l) :
    (l ++ [a]).eraseDups = l.eraseDups := by
  have hnew : [a].removeAll l = [] := by simp [List.removeAll, h]
  rw [List.eraseDups_append, hnew, List.eraseDups_nil, List.append_nil]

theorem eraseDups_concat_of_not_mem {l : List α} {a : α} (h : a ∉ l) :
    (l ++ [a]).eraseDups = l.eraseDups ++ [a] := by
  have hnew : [a].removeAll l = [a] := by simp [List.removeAll, h]
  have hone : [a].eraseDups = [a] := by simp [List.eraseDups_cons]
  rw [List.eraseDups_append, hnew, hone]

theorem nodup_eraseDups (l : List α) : l.eraseDups.Nodup := by
  induction l using List.reverseRecOn with
  | nil => simp
  | append_singleton l a ih =>
    by_cases h : a ∈ l
    · rwa [eraseDups_concat_of_mem h]
    · rw [eraseDups_concat_of_not_mem h]
      refine ih.append (List.nodup_singleton a) (List.disjoint_singleton.mpr ?_)
      rwa [List.mem_eraseDups]

end Formwork
