import Mathlib.Data.List.DropRight
import Formwork.Text.Blank

/-!
# Trimming

Nothing is left of a text iff it is blank (`isEmpty_trim`), and what is left has no white space at
its ends (`trim_trim`). What is taken off is white space (`exists_trimChars`), and all of it
(`trimChars_append`).
-/

namespace Formwork.Text

theorem trimRight_eq_rdropWhile (l : List Char) : trimRight l = l.rdropWhile isSpace := rfl

theorem trimRight_isPrefix (l : List Char) : trimRight l <+: l := List.rdropWhile_prefix isSpace l

theorem trimChars_sublist (l : List Char) : (trimChars l).Sublist l :=
  (trimRight_isPrefix _).sublist.trans (List.dropWhile_suffix isSpace).sublist

theorem trimChars_eq_nil_iff {l : List Char} : trimChars l = [] ↔ ∀ c ∈ l, isSpace c = true := by
  unfold trimChars trimLeft
  rw [trimRight_eq_rdropWhile, List.rdropWhile_eq_nil_iff, ← List.dropWhile_eq_nil_iff,
    List.dropWhile_idempotent, List.dropWhile_eq_nil_iff]

theorem trimLeft_eq_self_of_prefix {l m : List Char} (h : l <+: trimLeft m) : trimLeft l = l := by
  unfold trimLeft at h ⊢
  rw [List.dropWhile_eq_self_iff]
  intro hl
  obtain ⟨rest, hr⟩ := h
  have hpos : 0 < (m.dropWhile isSpace).length := by
    rw [← hr, List.length_append]
    omega
  have hhead := List.dropWhile_get_zero_not isSpace m hpos
  simp only [List.get_eq_getElem] at hhead
  have he : l[0] = (m.dropWhile isSpace)[0] := by
    simp only [← hr, List.getElem_append_left hl]
  rwa [he]

theorem trimChars_eq_trimRight {l : List Char} (hhead : ∀ c ∈ l.head?, isSpace c = false) :
    trimChars l = trimRight l := by
  rw [trimChars, trimLeft, List.dropWhile_eq_self_iff.mpr]
  intro hl
  simpa using hhead l[0] (by simp [List.head?_eq_getElem?])

theorem trimRight_eq_self_iff {l : List Char} :
    trimRight l = l ↔ ∀ c ∈ l.getLast?, isSpace c = false := by
  rw [trimRight_eq_rdropWhile, List.rdropWhile_eq_self_iff]
  constructor
  · intro h c hc
    obtain ⟨hl, rfl⟩ := List.mem_getLast?_eq_getLast hc
    simpa using h hl
  · exact fun h hl => by simpa using h _ (List.getLast?_eq_some_getLast hl)

theorem trimChars_eq_self {l : List Char} (hhead : ∀ c ∈ l.head?, isSpace c = false)
    (hlast : ∀ c ∈ l.getLast?, isSpace c = false) : trimChars l = l := by
  rw [trimChars_eq_trimRight hhead, trimRight_eq_self_iff.mpr hlast]

theorem trimRight_eq_nil_iff {l : List Char} : trimRight l = [] ↔ ∀ c ∈ l, isSpace c = true := by
  rw [trimRight_eq_rdropWhile, List.rdropWhile_eq_nil_iff]

/-- White space is taken off the right end up to a character that is none. -/
theorem trimRight_append_cons (l m : List Char) {c : Char} (hc : isSpace c = false) :
    trimRight (l ++ c :: m) = l ++ c :: trimRight m := by
  have hstop : (c :: l.reverse).dropWhile isSpace = c :: l.reverse :=
    List.dropWhile_cons_of_neg (by simp [hc])
  rw [trimRight, List.reverse_append, List.reverse_cons, List.append_assoc, List.singleton_append,
    List.dropWhile_append, hstop]
  split
  · next hm =>
    rw [trimRight, List.isEmpty_iff.mp hm]
    simp
  · simp [trimRight]

/-- A text is what is left after trimming, with white space on both sides. -/
theorem exists_trimChars (l : List Char) :
    ∃ left right, l = left ++ trimChars l ++ right ∧ (∀ c ∈ left, isSpace c = true) ∧
      ∀ c ∈ right, isSpace c = true := by
  refine ⟨l.takeWhile isSpace, (trimLeft l).rtakeWhile isSpace, ?_, fun c => ?_, fun c => ?_⟩
  · rw [trimChars, trimRight_eq_rdropWhile, List.append_assoc, List.rdropWhile_append_rtakeWhile,
      trimLeft, List.takeWhile_append_dropWhile]
  · exact List.mem_takeWhile_imp
  · exact List.mem_rtakeWhile_imp

/-- White space on both sides of characters that are none is taken off. -/
theorem trimChars_append {left core right : List Char} (hl : ∀ c ∈ left, isSpace c = true)
    (hc : ∀ c ∈ core, isSpace c = false) (hr : ∀ c ∈ right, isSpace c = true) :
    trimChars (left ++ core ++ right) = core := by
  have hleft : trimLeft (left ++ core ++ right) = trimLeft (core ++ right) := by
    rw [trimLeft, List.append_assoc, List.dropWhile_append_of_pos hl, trimLeft]
  cases core with
  | nil =>
    refine trimChars_eq_nil_iff.mpr fun c hc => ?_
    rcases List.mem_append.mp hc with hc | hc
    · exact hl c (by simpa using hc)
    · exact hr c hc
  | cons c core =>
    have hhead : trimLeft (c :: core ++ right) = c :: core ++ right := by
      rw [trimLeft, List.cons_append, List.dropWhile_cons_of_neg]
      simp [hc c (List.mem_cons_self ..)]
    have hlast : trimRight (c :: core ++ right) = trimRight (c :: core) := by
      rw [trimRight, List.reverse_append, List.dropWhile_append_of_pos, trimRight]
      exact fun x hx => hr x (List.mem_reverse.mp hx)
    rw [trimChars, hleft, hhead, hlast, trimRight_eq_rdropWhile, List.rdropWhile_eq_self_iff]
    intro hne
    simp [hc _ (List.getLast_mem hne)]

theorem trimLeft_trimChars (l : List Char) : trimLeft (trimChars l) = trimChars l :=
  trimLeft_eq_self_of_prefix (trimRight_isPrefix (trimLeft l))

theorem trimChars_trimChars (l : List Char) : trimChars (trimChars l) = trimChars l := by
  rw [trimChars, trimLeft_trimChars, trimChars, trimRight_eq_rdropWhile, trimRight_eq_rdropWhile,
    List.rdropWhile_idempotent]

theorem isSpace_of_trimChars_eq_cons {l rest : List Char} {c : Char}
    (h : trimChars l = c :: rest) : isSpace c = false := by
  have hself := trimLeft_trimChars l
  rw [h, trimLeft, List.dropWhile_eq_self_iff] at hself
  simpa using hself (Nat.succ_pos _)

theorem isEmpty_trim (s : String) : (trim s).isEmpty = isBlank s := by
  rw [Bool.eq_iff_iff, String.isEmpty_iff, trim, String.ofList_eq_empty_iff, trimChars_eq_nil_iff,
    isBlank, List.all_eq_true]

theorem trim_trim (s : String) : trim (trim s) = trim s := by
  unfold trim
  rw [String.toList_ofList, trimChars_trimChars]

theorem isBlank_trim (s : String) : isBlank (trim s) = isBlank s := by
  rw [← isEmpty_trim, trim_trim, isEmpty_trim]

end Formwork.Text
