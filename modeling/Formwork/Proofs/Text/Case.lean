import Mathlib.Data.Nat.Bitwise
import Formwork.Text.Blank
import Formwork.Text.Unicode.Case

/-!
# Case mappings

Upper case and lower case are idempotent (`toUpper_toUpper`, `toLower_toLower`), and neither brings
white space or a mark of the ASCII range into a text.

* `mem_upper`, `mem_lower`: a form of a character is kept by the mapping, and it is a form in the
  sense of `IsFormOf`.
* `mem_toUpper`, `mem_toLower`: the same for the characters of a text.

About the tables this needs one fact, which is checked code point by code point: what a run maps to
is spoken of by no run (`upperMap_settled`, `lowerMap_settled`). The kernel computes with numbers of
any size, so the set of the code points that a table speaks of is held as the bits of one number.
-/

namespace Formwork.Text.Unicode

variable {c d : Char}

/-! ## Tables -/

/-- The code points of a run, counted from the first one. -/
def MapRun.offsets (r : MapRun) : List Nat :=
  (List.range ((r.last - r.first) / r.step + 1)).map (r.step * ·)

/-- The code points that a run speaks of. -/
def MapRun.sources (r : MapRun) : List Nat := r.offsets.map (r.first + ·)

/-- The code points that a run maps to. -/
def MapRun.targets (r : MapRun) : List Nat := r.offsets.map (r.target + ·) ++ r.tail

/-- A set of numbers as the bits of one number. -/
def bits (l : List Nat) : Nat := l.foldr (fun n m => 2 ^ n ||| m) 0

theorem testBit_bits {l : List Nat} {n : Nat} : (bits l).testBit n = true ↔ n ∈ l := by
  induction l with
  | nil => simp [bits]
  | cons m l ih =>
    show (2 ^ m ||| bits l).testBit n = true ↔ _
    rw [Nat.testBit_or, Nat.testBit_two_pow, Bool.or_eq_true, ih, decide_eq_true_iff,
      List.mem_cons, eq_comm]

/-- Whether the characters at the code points fulfil `p`, and no run speaks of them. -/
def settled (p : Char → Bool) (runs : List MapRun) (points : List Nat) : Bool :=
  points.all fun n =>
    p (Char.ofNat n) && !(bits (runs.flatMap MapRun.sources)).testBit (Char.ofNat n).toNat

theorem exists_offset_of_covers {r : MapRun} {n : Nat} (h : CodeMap.covers r n = true) :
    ∃ k ∈ r.offsets, n = r.first + k := by
  simp only [CodeMap.covers, Bool.and_eq_true, decide_eq_true_eq, beq_iff_eq] at h
  obtain ⟨⟨hfirst, hlast⟩, hstep⟩ := h
  have hdiv := Nat.div_add_mod (n - r.first) r.step
  refine ⟨r.step * ((n - r.first) / r.step), List.mem_map.mpr ⟨_, ?_, rfl⟩, by omega⟩
  have hle : (n - r.first) / r.step ≤ (r.last - r.first) / r.step :=
    Nat.div_le_div_right (by omega)
  exact List.mem_range.mpr (by omega)

namespace CodeMap

variable {m : CodeMap} {p : Char → Bool} {points : List Nat}

theorem get?_of_settled (h : settled p m.runs.toList points = true) {n : Nat} (hn : n ∈ points) :
    p (Char.ofNat n) = true ∧ m.get? (Char.ofNat n) = none := by
  have hn := List.all_eq_true.mp h n hn
  rw [Bool.and_eq_true, Bool.not_eq_true', ← Bool.not_eq_true, testBit_bits] at hn
  refine ⟨hn.1, ?_⟩
  rw [get?, Option.map_eq_none_iff, Array.find?_eq_none]
  intro r hr hcovers
  obtain ⟨k, hk, hkn⟩ := exists_offset_of_covers hcovers
  have hsource := List.mem_map.mpr ⟨k, hk, hkn.symm⟩
  exact hn.2 (List.mem_flatMap.mpr ⟨r, Array.mem_toList_iff.mpr hr, hsource⟩)

/-- What a map gives has `p` and is mapped no further. -/
theorem get?_of_mem_get? (h : settled p m.runs.toList points = true)
    (hpoints : m.runs.toList.flatMap MapRun.targets ⊆ points) {image : List Char}
    (hc : m.get? c = some image) (hd : d ∈ image) : p d = true ∧ m.get? d = none := by
  obtain ⟨r, hfind, rfl⟩ := Option.map_eq_some_iff.mp hc
  have hr : r ∈ m.runs.toList := Array.mem_toList_iff.mpr (Array.mem_of_find?_eq_some hfind)
  have hcovers : covers r c.toNat = true := by simpa using Array.find?_some hfind
  obtain ⟨k, hk, hkc⟩ := exists_offset_of_covers hcovers
  have htarget : ∃ n ∈ r.targets, d = Char.ofNat n := by
    rcases List.mem_cons.mp hd with rfl | hd
    · have hn := List.mem_append_left r.tail (List.mem_map_of_mem (f := (r.target + ·)) hk)
      exact ⟨r.target + k, hn, by rw [hkc, Nat.add_sub_cancel_left]⟩
    · obtain ⟨n, hn, rfl⟩ := List.mem_map.mp hd
      exact ⟨n, List.mem_append_right _ hn, rfl⟩
  obtain ⟨n, hn, rfl⟩ := htarget
  exact get?_of_settled h (hpoints (List.mem_flatMap.mpr ⟨r, hr, hn⟩))

/-- A table text put together from pieces, as a list of characters. -/
theorem append_ofList {s t : String} {l m : List Char} (hs : s = String.ofList l)
    (ht : t = String.ofList m) : s ++ t = String.ofList (l ++ m) := by
  rw [hs, ht, String.ofList_append]

theorem runs_ofText {text : String} {l : List Char} (h : text = String.ofList l) :
    (ofText text).runs.toList = ((l.splitOn ' ').filter (!·.isEmpty)).map MapRun.ofWord := by
  rw [ofText, words, h, String.toList_ofList]

end CodeMap

/-! ## Characters -/

/-- `d` may stand for `c` in another case: it is `c` itself, or no white space and, in the ASCII
range, a letter. -/
def IsFormOf (c d : Char) : Prop :=
  d = c ∨ isSpace d = false ∧ (d.toNat < 128 → d.isAlpha = true)

theorem IsFormOf.isSpace (h : IsFormOf c d) (hd : isSpace d = true) : isSpace c = true := by
  rcases h with rfl | ⟨hspace, -⟩
  · exact hd
  · rw [hspace] at hd
    cases hd

/-- No white space, and a letter of the given case where it is of the ASCII range. -/
def isForm (letter : Char → Bool) (d : Char) : Bool := !isSpace d && (128 ≤ d.toNat || letter d)

theorem isFormOf_of_isForm {letter : Char → Bool} (hl : ∀ c, letter c = true → c.isAlpha = true)
    (h : isForm letter d = true) : IsFormOf c d := by
  simp only [isForm, Bool.and_eq_true, Bool.not_eq_true', Bool.or_eq_true, decide_eq_true_eq] at h
  exact .inr ⟨h.1, fun hd => hl d (h.2.resolve_left (by omega))⟩

/-- The mapping by `f` in the ASCII range, and by a table outside. -/
def mapped (f : Char → Char) (m : CodeMap) (c : Char) : List Char :=
  if c.toNat < 128 then [f c] else (m.get? c).getD [c]

theorem mapped_ne_nil (f : Char → Char) (m : CodeMap) (c : Char) : mapped f m c ≠ [] := by
  unfold mapped
  split
  · exact List.cons_ne_nil _ _
  · cases hget : m.get? c with
    | none => exact List.cons_ne_nil _ _
    | some image =>
      obtain ⟨r, -, rfl⟩ := Option.map_eq_some_iff.mp hget
      exact List.cons_ne_nil _ _

/-- A character stays as it is, or is mapped to forms that stay as they are. -/
theorem mapped_cases {f : Char → Char} {m : CodeMap} {p : Char → Bool} {points : List Nat}
    (hform : ∀ c, c.toNat < 128 → f c ≠ c → (f c).toNat < 128 ∧ p (f c) = true)
    (hkept : ∀ d, d.toNat < 128 → p d = true → f d = d)
    (hm : settled p m.runs.toList points = true)
    (hpoints : m.runs.toList.flatMap MapRun.targets ⊆ points) (c : Char) :
    mapped f m c = [c] ∨ ∀ d ∈ mapped f m c, mapped f m d = [d] ∧ p d = true := by
  have hstays : ∀ d, p d = true → (128 ≤ d.toNat → m.get? d = none) → mapped f m d = [d] := by
    intro d hd hnone
    unfold mapped
    split
    · next hlow => rw [hkept d hlow hd]
    · next hhigh => rw [hnone (by omega), Option.getD_none]
  by_cases hlow : c.toNat < 128
  · rw [mapped, if_pos hlow]
    by_cases hc : f c = c
    · exact .inl (by rw [hc])
    · obtain ⟨hrange, hp⟩ := hform c hlow hc
      exact .inr (List.forall_mem_singleton.mpr ⟨hstays _ hp fun h => by omega, hp⟩)
  · rw [mapped, if_neg hlow]
    cases hget : m.get? c with
    | none => exact .inl rfl
    | some image =>
      refine .inr fun d hd => ?_
      obtain ⟨hp, hnone⟩ := CodeMap.get?_of_mem_get? hm hpoints hget hd
      exact ⟨hstays d hp fun _ => hnone, hp⟩

theorem forall_ascii {P : Char → Prop} (h : ∀ n < 128, P (Char.ofNat n)) (c : Char)
    (hc : c.toNat < 128) : P c :=
  Char.ofNat_toNat c ▸ h c.toNat hc

/-- A form in lower case; the capital sigma, which is mapped by what stands around it, is none. -/
def isLowerForm (d : Char) : Bool := isForm Char.isLower d && d != 'Σ'

/-- A form in upper case. -/
def isUpperForm (d : Char) : Bool := isForm Char.isUpper d

/- The kernel takes a text literal apart only slowly, so the pieces of a table text become lists of
characters before it is read. -/

theorem lowerMap_settled : settled isLowerForm lowerMap.runs.toList
    (lowerMap.runs.toList.flatMap MapRun.targets ++ ['σ'.toNat, 'ς'.toNat]) = true := by
  unfold lowerMap
  rw [CodeMap.runs_ofText]
  rotate_left
  · repeat' apply CodeMap.append_ofList
    all_goals exact rfl
  · decide +kernel

theorem upperMap_settled : settled isUpperForm upperMap.runs.toList
    (upperMap.runs.toList.flatMap MapRun.targets) = true := by
  unfold upperMap
  rw [CodeMap.runs_ofText]
  rotate_left
  · repeat' apply CodeMap.append_ofList
    all_goals exact rfl
  · decide +kernel

theorem upper_cases (c : Char) :
    upper c = [c] ∨ ∀ d ∈ upper c, upper d = [d] ∧ isUpperForm d = true :=
  mapped_cases (f := Char.toUpper) (m := upperMap) (forall_ascii (by decide +kernel))
    (forall_ascii (by decide +kernel)) upperMap_settled (List.Subset.refl _) c

theorem lower_cases (c : Char) :
    lower c = [c] ∨ ∀ d ∈ lower c, lower d = [d] ∧ isLowerForm d = true :=
  mapped_cases (f := Char.toLower) (m := lowerMap) (forall_ascii (by decide +kernel))
    (forall_ascii (by decide +kernel)) lowerMap_settled (List.subset_append_left ..) c

/-- A form in upper case is kept by upper case. -/
theorem mem_upper (h : d ∈ upper c) : upper d = [d] ∧ IsFormOf c d := by
  rcases upper_cases c with hc | hc
  · obtain rfl := List.mem_singleton.mp (hc ▸ h)
    exact ⟨hc, .inl rfl⟩
  · obtain ⟨hd, hform⟩ := hc d h
    have halpha : ∀ c : Char, c.isUpper = true → c.isAlpha = true :=
      fun c hc => (Bool.or_eq_true ..).mpr (.inl hc)
    exact ⟨hd, isFormOf_of_isForm halpha hform⟩

/-- A character that lower case keeps wherever it stands. -/
def IsLowered (d : Char) : Prop := lower d = [d] ∧ d ≠ 'Σ'

/-- A form in lower case is kept by lower case. -/
theorem mem_lower (hc : c ≠ 'Σ') (h : d ∈ lower c) : IsLowered d ∧ IsFormOf c d := by
  rcases lower_cases c with hkept | hforms
  · obtain rfl := List.mem_singleton.mp (hkept ▸ h)
    exact ⟨⟨hkept, hc⟩, .inl rfl⟩
  · obtain ⟨hd, hform⟩ := hforms d h
    rw [isLowerForm, Bool.and_eq_true, bne_iff_ne] at hform
    have halpha : ∀ c : Char, c.isLower = true → c.isAlpha = true :=
      fun c hc => (Bool.or_eq_true ..).mpr (.inr hc)
    exact ⟨⟨hd, hform.2⟩, isFormOf_of_isForm halpha hform.1⟩

/-- The small sigmas, which the capital one becomes. -/
theorem isLowered_of_mem_sigmas (h : d ∈ ['σ', 'ς']) : IsLowered d := by
  have hnone : lowerMap.get? d = none := by
    have hpoint := List.mem_append_right (lowerMap.runs.toList.flatMap MapRun.targets)
      (List.mem_map_of_mem (f := Char.toNat) h)
    have hget := (CodeMap.get?_of_settled lowerMap_settled hpoint).2
    rwa [Char.ofNat_toNat] at hget
  have hrange : ¬ d.toNat < 128 ∧ d ≠ 'Σ' := by
    rcases List.mem_cons.mp h with rfl | h
    · decide
    · rw [List.mem_singleton.mp h]
      decide
  exact ⟨by rw [lower, if_neg hrange.1, hnone, Option.getD_none], hrange.2⟩

/-! ## Lower case in a text -/

variable {before l : List Char}

/-- What lower case makes of a character, behind those of `before` and in front of `rest`. -/
def lowerAt (before : List Char) (c : Char) (rest : List Char) : List Char :=
  if c = 'Σ' then if meetsCased before && !meetsCased rest then ['ς'] else ['σ'] else lower c

theorem lowerFrom_cons (before : List Char) (c : Char) (rest : List Char) :
    lowerFrom before (c :: rest) = lowerAt before c rest ++ lowerFrom (c :: before) rest := rfl

theorem lowerAt_ne_nil (before : List Char) (c : Char) (rest : List Char) :
    lowerAt before c rest ≠ [] := by
  unfold lowerAt
  split_ifs
  · exact List.cons_ne_nil _ _
  · exact List.cons_ne_nil _ _
  · exact mapped_ne_nil Char.toLower lowerMap c

theorem mem_lowerAt {rest : List Char} (h : d ∈ lowerAt before c rest) :
    IsLowered d ∧ IsFormOf c d := by
  unfold lowerAt at h
  split at h
  · next hc =>
    subst hc
    split at h
    · obtain rfl := List.mem_singleton.mp h
      exact ⟨isLowered_of_mem_sigmas (by simp), .inr (by decide)⟩
    · obtain rfl := List.mem_singleton.mp h
      exact ⟨isLowered_of_mem_sigmas (by simp), .inr (by decide)⟩
  · next hc => exact mem_lower hc h

theorem mem_lowerFrom (h : d ∈ lowerFrom before l) : IsLowered d ∧ ∃ c ∈ l, IsFormOf c d := by
  induction l generalizing before with
  | nil => cases h
  | cons c rest ih =>
    rw [lowerFrom_cons] at h
    rcases List.mem_append.mp h with h | h
    · obtain ⟨hd, hform⟩ := mem_lowerAt h
      exact ⟨hd, c, List.mem_cons_self .., hform⟩
    · obtain ⟨hd, c', hc', hform⟩ := ih h
      exact ⟨hd, c', List.mem_cons_of_mem c hc', hform⟩

theorem lowerFrom_eq_self (h : ∀ c ∈ l, IsLowered c) : lowerFrom before l = l := by
  induction l generalizing before with
  | nil => rfl
  | cons c rest ih =>
    obtain ⟨hc, hsigma⟩ := h c (List.mem_cons_self ..)
    rw [lowerFrom_cons, ih fun d hd => h d (List.mem_cons_of_mem c hd), lowerAt, if_neg hsigma, hc]
    rfl

/-- What comes first in lower case is a form of what came first. -/
theorem exists_lowerFrom_cons (before : List Char) (c : Char) (rest : List Char) :
    ∃ d more, lowerFrom before (c :: rest) = d :: more ∧ IsFormOf c d := by
  obtain ⟨d, image, hd⟩ := List.exists_cons_of_ne_nil (lowerAt_ne_nil before c rest)
  have hform := (mem_lowerAt (hd ▸ List.mem_cons_self ..)).2
  refine ⟨d, image ++ lowerFrom (c :: before) rest, ?_, hform⟩
  rw [lowerFrom_cons, hd, List.cons_append]

end Formwork.Text.Unicode

namespace Formwork.Text

open Unicode

variable {c : Char} {s : String}

/-! ## Texts -/

theorem mem_toUpper (h : c ∈ (toUpper s).toList) :
    upper c = [c] ∧ ∃ c' ∈ s.toList, IsFormOf c' c := by
  rw [toUpper, String.toList_ofList] at h
  obtain ⟨c', hc', h⟩ := List.mem_flatMap.mp h
  obtain ⟨hc, hform⟩ := mem_upper h
  exact ⟨hc, c', hc', hform⟩

theorem mem_toLower (h : c ∈ (toLower s).toList) :
    IsLowered c ∧ ∃ c' ∈ s.toList, IsFormOf c' c := by
  rw [toLower, String.toList_ofList] at h
  exact mem_lowerFrom h

theorem toUpper_eq_self (h : ∀ c ∈ s.toList, upper c = [c]) : toUpper s = s := by
  rw [toUpper, List.flatMap_def, List.map_congr_left h, ← List.flatMap_def,
    List.flatMap_singleton', String.ofList_toList]

theorem toLower_eq_self (h : ∀ c ∈ s.toList, IsLowered c) : toLower s = s := by
  rw [toLower, lowerFrom_eq_self h, String.ofList_toList]

theorem toUpper_toUpper (s : String) : toUpper (toUpper s) = toUpper s :=
  toUpper_eq_self fun _ hc => (mem_toUpper hc).1

theorem toLower_toLower (s : String) : toLower (toLower s) = toLower s :=
  toLower_eq_self fun _ hc => (mem_toLower hc).1

theorem toUpper_ne_empty (h : s ≠ "") : toUpper s ≠ "" := by
  obtain ⟨c, rest, hs⟩ := List.exists_cons_of_ne_nil (mt String.toList_eq_nil_iff.mp h)
  rw [toUpper, hs, Ne, String.ofList_eq_empty_iff, List.flatMap_cons, List.append_eq_nil_iff]
  exact fun hnil => mapped_ne_nil Char.toUpper upperMap c hnil.1

end Formwork.Text
