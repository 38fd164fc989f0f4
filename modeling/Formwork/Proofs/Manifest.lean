import Formwork.Manifest
import Formwork.Proofs.Text.Blank
import Mathlib.Data.List.Infix
import Mathlib.Tactic.Linarith

/-!
# Which lists of names a manifest keeps

- **Cuts** (`ManifestCodec.cut_intercalate_iff`): joined names are cut into the names again if behind
  each of them the delimiter is found where it starts, and not before (`FoundBehind`): a name can
  end in what the delimiter begins with. The parts of any text, joined, are the text
  (`intercalate_cut`).
- **Names** (`ManifestCodec.eq_of_kept`): trimming and leaving out blank parts takes characters
  away, so if it gives the names back, the parts were the names.
- **Manifests** (`ManifestCodec.decode_encode_iff`): so exactly such lists of names are kept.
-/

namespace Formwork

namespace ManifestCodec

variable {d name text rest : List Char}

/-! ## Cuts -/

/-- The delimiter behind a name is found where it starts, and not before. -/
def FoundBehind (d name : List Char) : Prop :=
  ∀ i < name.length, ¬ d <+: (name ++ d).drop i

instance : Decidable (FoundBehind d name) :=
  inferInstanceAs (Decidable (∀ i < name.length, ¬ d <+: (name ++ d).drop i))

/-- Whether the delimiter starts in a name does not hang on what is behind the next one. -/
theorem prefix_append_iff : d <+: name ++ (d ++ rest) ↔ d <+: name ++ d := by
  rw [← List.append_assoc]
  constructor
  · intro hp
    refine List.prefix_of_prefix_length_le hp (List.prefix_append _ _) ?_
    rw [List.length_append]
    omega
  · exact fun hp => hp.trans (List.prefix_append _ _)

theorem foundBehind_cons {c : Char} :
    FoundBehind d (c :: name) ↔ ¬ d <+: c :: name ++ d ∧ FoundBehind d name := by
  constructor
  · exact fun h => ⟨h 0 (Nat.succ_pos _), fun i hi => h (i + 1) (Nat.succ_lt_succ hi)⟩
  · rintro ⟨hfirst, h⟩ (_ | i) hi
    · exact hfirst
    · exact h i (Nat.lt_of_succ_lt_succ hi)

theorem cut_skip (l : List Char) : cut d l.length (l ++ rest) = cut d 0 rest := by
  induction l with
  | nil => rfl
  | cons c l ih => exact ih

theorem cut_delimiter (hd : d ≠ []) : cut d 0 (d ++ rest) = [] :: cut d 0 rest := by
  cases d with
  | nil => exact absurd rfl hd
  | cons c d =>
    have hp : (c :: d).isPrefixOf (c :: (d ++ rest)) = true :=
      List.isPrefixOf_iff_prefix.mpr (List.prefix_append (c :: d) rest)
    rw [List.cons_append, cut]
    simp only [hp, ↓reduceIte, List.length_cons, Nat.add_sub_cancel, cut_skip]

theorem cut_of_prefix (hd : d ≠ []) (h : d <+: text) : ∃ parts, cut d 0 text = [] :: parts := by
  obtain ⟨rest, rfl⟩ := h
  exact ⟨_, cut_delimiter hd⟩

theorem cut_ne_nil {skip : Nat} : cut d skip text ≠ [] := by
  fun_induction cut d skip text <;> simp_all

theorem cut_cons {c : Char} {part : List Char} {parts : List (List Char)}
    (h : ¬ d <+: c :: rest) (hr : cut d 0 rest = part :: parts) :
    cut d 0 (c :: rest) = (c :: part) :: parts := by
  have hp : ¬ d.isPrefixOf (c :: rest) = true := fun hp => h (List.isPrefixOf_iff_prefix.mp hp)
  rw [cut]
  simp only [hp, hr]
  rfl

/-- A name is cut off where the delimiter starts. -/
theorem cut_name (hd : d ≠ []) (h : FoundBehind d name) :
    cut d 0 (name ++ (d ++ rest)) = name :: cut d 0 rest := by
  induction name with
  | nil => exact cut_delimiter hd
  | cons c name ih =>
    obtain ⟨hfirst, hname⟩ := foundBehind_cons.mp h
    exact cut_cons (fun hp => hfirst (prefix_append_iff.mp hp)) (ih hname)

theorem cut_of_not_infix (h : ¬ d <:+: text) : cut d 0 text = [text] := by
  induction text with
  | nil => rfl
  | cons c text ih =>
    rw [List.infix_cons_iff, not_or] at h
    exact cut_cons h.1 (ih h.2)

/-- Only a name behind which the delimiter is found at once is cut off whole. -/
theorem foundBehind_of_cut (hd : d ≠ []) {parts : List (List Char)}
    (h : cut d 0 (name ++ (d ++ rest)) = name :: parts) : FoundBehind d name := by
  induction name generalizing parts with
  | nil => exact fun i hi => absurd hi (Nat.not_lt_zero i)
  | cons c name ih =>
    rw [foundBehind_cons]
    rw [List.cons_append] at h
    have hfirst : ¬ d <+: c :: (name ++ (d ++ rest)) := by
      intro hp
      obtain ⟨_, hcut⟩ := cut_of_prefix hd hp
      rw [hcut] at h
      cases h
    have hne : cut d 0 (name ++ (d ++ rest)) ≠ [] := cut_ne_nil
    obtain ⟨part, tail, hr⟩ := List.exists_cons_of_ne_nil hne
    rw [cut_cons hfirst hr] at h
    obtain ⟨hpart, rfl⟩ := List.cons.inj h
    obtain ⟨-, rfl⟩ := List.cons.inj hpart
    exact ⟨fun hp => hfirst (prefix_append_iff.mpr hp), ih hr⟩

/-- Joined names are cut into the names iff the delimiter is found behind each but the last one
where it starts. -/
theorem cut_intercalate_iff (hd : d ≠ []) {names : List (List Char)} (hne : names ≠ [])
    (hlast : ∀ name ∈ names, ¬ d <:+: name) :
    cut d 0 (d.intercalate names) = names ↔ ∀ name ∈ names.dropLast, FoundBehind d name := by
  induction names with
  | nil => exact absurd rfl hne
  | cons name names ih =>
    cases names with
    | nil => simpa using cut_of_not_infix (hlast name (by simp))
    | cons next names =>
      have hrest := ih (by simp) fun n hn => hlast n (List.mem_cons_of_mem _ hn)
      rw [List.intercalate_cons_of_ne_nil (by simp), List.append_assoc, List.dropLast_cons_cons,
        List.forall_mem_cons, ← hrest]
      constructor
      · intro h
        have hname := foundBehind_of_cut hd h
        rw [cut_name hd hname] at h
        exact ⟨hname, (List.cons.inj h).2⟩
      · rintro ⟨hname, h⟩
        rw [cut_name hd hname, h]

theorem intercalate_cons_cons (c : Char) (part : List Char) (parts : List (List Char)) :
    d.intercalate ((c :: part) :: parts) = c :: d.intercalate (part :: parts) := by
  cases parts <;> rfl

/-- The parts of a text, joined by the delimiter, are the text. -/
theorem intercalate_cut (hd : d ≠ []) (skip : Nat) :
    d.intercalate (cut d skip text) = text.drop skip := by
  fun_induction cut d skip text with
  | case1 skip => simp
  | case2 c rest skip ih => exact ih
  | case3 c rest hp ih =>
    obtain ⟨tail, ht⟩ := List.isPrefixOf_iff_prefix.mp hp
    rw [List.intercalate_cons_of_ne_nil cut_ne_nil, ih, List.nil_append, List.drop_zero]
    cases d with
    | nil => exact absurd rfl hd
    | cons c' d =>
      obtain ⟨rfl, rfl⟩ := List.cons.inj ht
      simp
  | case4 c rest hp hr => exact absurd hr cut_ne_nil
  | case5 c rest hp part parts hr ih =>
    rw [intercalate_cons_cons, ← hr, ih]
    rfl

/-! ## Names -/

theorem length_intercalate {parts : List (List Char)} (h : parts ≠ []) :
    (d.intercalate parts).length + d.length = parts.flatten.length + d.length * parts.length := by
  induction parts with
  | nil => exact absurd rfl h
  | cons part parts ih =>
    cases parts with
    | nil => simp
    | cons next parts =>
      have hrest := ih (by simp)
      rw [List.intercalate_cons_of_ne_nil (by simp), List.length_append, List.length_append,
        List.flatten_cons, List.length_append, List.length_cons, Nat.mul_add]
      omega

/-- The names that are read from the parts of a text. -/
def kept (parts : List (List Char)) : List (List Char) :=
  (parts.map Text.trimChars).filter fun name => !name.isEmpty

theorem length_kept_le (parts : List (List Char)) : (kept parts).length ≤ parts.length := by
  unfold kept
  exact (List.length_filter_le _ _).trans (List.length_map _).le

theorem length_flatten_kept_le (parts : List (List Char)) :
    (kept parts).flatten.length ≤ parts.flatten.length := by
  induction parts with
  | nil => exact Nat.le_refl _
  | cons part parts ih =>
    have hpart := (Text.trimChars_sublist part).length_le
    have hkept : (kept (part :: parts)).flatten = Text.trimChars part ++ (kept parts).flatten := by
      cases hp : Text.trimChars part <;> simp [kept, hp]
    rw [hkept, List.length_append, List.flatten_cons, List.length_append]
    omega

/-- Parts of which no character is lost are the names that are read from them. -/
theorem kept_eq_self {parts : List (List Char)} (hn : (kept parts).length = parts.length)
    (hl : (kept parts).flatten.length = parts.flatten.length) : kept parts = parts := by
  induction parts with
  | nil => rfl
  | cons part parts ih =>
    have hpart := (Text.trimChars_sublist part).length_le
    have hcount := length_kept_le parts
    have hchars := length_flatten_kept_le parts
    by_cases hp : Text.trimChars part = []
    · have hkept : kept (part :: parts) = kept parts := by simp [kept, hp]
      rw [hkept, List.length_cons] at hn
      omega
    · have hkept : kept (part :: parts) = Text.trimChars part :: kept parts := by simp [kept, hp]
      rw [hkept, List.length_cons, List.length_cons] at hn
      rw [hkept, List.flatten_cons, List.length_append, List.flatten_cons, List.length_append] at hl
      rw [hkept, (Text.trimChars_sublist part).eq_of_length (by omega), ih (by omega) (by omega)]

/-- Names that are read from parts of the joined names are these parts. -/
theorem eq_of_kept (hd : d ≠ []) {names : List (List Char)} (hne : names ≠ [])
    (h : kept (cut d 0 (d.intercalate names)) = names) : cut d 0 (d.intercalate names) = names := by
  have hjoined : d.intercalate (cut d 0 (d.intercalate names)) = d.intercalate names :=
    intercalate_cut hd 0
  generalize cut d 0 (d.intercalate names) = parts at h hjoined
  have hparts : parts ≠ [] := by
    rintro rfl
    exact hne h.symm
  have hlength := length_intercalate (d := d) hparts
  rw [hjoined, length_intercalate hne, ← h] at hlength
  have hcount := length_kept_le parts
  have hchars := length_flatten_kept_le parts
  have hpos : 0 < d.length := List.length_pos_iff.mpr hd
  have hsame : parts.length = (kept parts).length := by
    refine Nat.le_antisymm (Nat.le_of_mul_le_mul_left ?_ hpos) hcount
    omega
  rw [hsame] at hlength
  exact (kept_eq_self hsame.symm (by omega)).symm.trans h

/-! ## Manifests -/

/-- No text that the delimiter begins with is one that it ends with, but the whole of it. -/
def Unbordered (d : List Char) : Prop := ∀ i < d.length, 0 < i → ¬ d.drop i <+: d

instance : Decidable (Unbordered d) :=
  inferInstanceAs (Decidable (∀ i < d.length, 0 < i → ¬ d.drop i <+: d))

/-- A delimiter that does not overlap itself is found behind every name that does not hold it. -/
theorem foundBehind_of_unbordered (hd : Unbordered d) (h : ¬ d <:+: name) :
    FoundBehind d name := by
  intro i hi hp
  rw [List.drop_append_of_le_length (Nat.le_of_lt hi)] at hp
  by_cases hlength : d.length ≤ (name.drop i).length
  · exact h ((List.prefix_of_prefix_length_le hp (List.prefix_append _ _) hlength).isInfix.trans
      (List.drop_suffix i name).isInfix)
  · -- what is left of the name begins the delimiter, and the rest of it begins it once more
    rw [Nat.not_le] at hlength
    obtain ⟨back, hback⟩ := List.prefix_of_prefix_length_le (List.prefix_append _ _) hp hlength.le
    have hdrop : d.drop (name.drop i).length = back := by
      conv_lhs => rw [← hback]
      exact List.drop_left
    have hbegins : back <+: d := by
      rw [← hback] at hp
      exact ((List.prefix_append_right_inj _).mp hp).trans (by rw [hback])
    refine hd (name.drop i).length hlength ?_ (hdrop ▸ hbegins)
    rw [List.length_drop]
    omega

theorem decode_eq_some_iff {delimiter text : String} {fields : List String}
    (hd : delimiter ≠ "") : (delimited delimiter).decode text = some fields ↔
      fields ≠ [] ∧ kept (cut delimiter.toList 0 text.toList) = fields.map String.toList := by
  have hempty : ¬ delimiter.isEmpty = true := by simpa using hd
  show (if delimiter.isEmpty then none
    else if (kept (cut delimiter.toList 0 text.toList)).isEmpty then none
    else some ((kept (cut delimiter.toList 0 text.toList)).map String.ofList)) = some fields ↔ _
  rw [if_neg hempty]
  generalize kept (cut delimiter.toList 0 text.toList) = names
  cases names with
  | nil => simp [eq_comm]
  | cons name names =>
    simp only [List.isEmpty_cons, Bool.false_eq_true, ↓reduceIte, Option.some.injEq]
    constructor
    · rintro rfl
      simp [Function.comp_def]
    · rintro ⟨-, h⟩
      rw [h, List.map_map]
      simp [Function.comp_def]

/-- **Which lists of names are kept.** A list of names that hold no delimiter is read back iff
behind each name but the last one the delimiter is found where it starts, and not before. That is
so for all such lists if the delimiter does not overlap itself. -/
theorem decode_encode_iff {delimiter : String} {fields : List String} (hd : delimiter ≠ "")
    (hne : fields ≠ []) (hf : ∀ f ∈ fields,
      f ≠ "" ∧ Text.trim f = f ∧ ¬ delimiter.toList <:+: f.toList) :
    ((delimited delimiter).decode ((delimited delimiter).encode fields) = some fields ↔
      ∀ f ∈ fields.dropLast, FoundBehind delimiter.toList f.toList) ∧
    (Unbordered delimiter.toList →
      (delimited delimiter).decode ((delimited delimiter).encode fields) = some fields) := by
  have hd' : delimiter.toList ≠ [] := by simpa using hd
  have hnames : fields.map String.toList ≠ [] := by simpa using hne
  have hlast : ∀ name ∈ fields.map String.toList, ¬ delimiter.toList <:+: name :=
    List.forall_mem_map.mpr fun f hm => (hf f hm).2.2
  have hkept : kept (fields.map String.toList) = fields.map String.toList := by
    have htrim : ∀ f ∈ fields, (Text.trimChars ∘ String.toList) f = f.toList := fun f hm => by
      rw [Function.comp_apply, ← String.toList_ofList (l := Text.trimChars f.toList)]
      exact congrArg String.toList (hf f hm).2.1
    rw [kept, List.map_map, List.map_congr_left htrim, List.filter_eq_self]
    exact List.forall_mem_map.mpr fun f hm => by simpa using (hf f hm).1
  have hiff : (delimited delimiter).decode ((delimited delimiter).encode fields) = some fields ↔
      ∀ f ∈ fields.dropLast, FoundBehind delimiter.toList f.toList := by
    have hencode : ((delimited delimiter).encode fields).toList =
        delimiter.toList.intercalate (fields.map String.toList) := String.toList_intercalate
    rw [decode_eq_some_iff hd, hencode, and_iff_right hne, ← List.forall_mem_map
      (P := FoundBehind delimiter.toList), List.map_dropLast,
      ← cut_intercalate_iff hd' hnames hlast]
    exact ⟨eq_of_kept hd' hnames, fun h => by rw [h, hkept]⟩
  refine ⟨hiff, fun hu => hiff.mpr fun f hm => ?_⟩
  exact foundBehind_of_unbordered hu (hf f (List.mem_of_mem_dropLast hm)).2.2

/-- The bars that the last name ends in are not taken for a delimiter, those of another one are. -/
theorem decode_encode_iff_bars :
    (∀ f ∈ ["|a", "b|c", "d|"], f ≠ "" ∧ Text.trim f = f ∧ ¬ "||".toList <:+: f.toList) ∧
    standard.decode (standard.encode ["|a", "b|c", "d|"]) = some ["|a", "b|c", "d|"] ∧
    standard.decode (standard.encode ["a|", "b"]) ≠ some ["a|", "b"] := by
  have hf : ∀ f ∈ ["|a", "b|c", "d|"], f ≠ "" ∧ Text.trim f = f ∧ ¬ "||".toList <:+: f.toList := by
    decide +kernel
  refine ⟨hf, (decode_encode_iff (by decide) (by decide) hf).1.mpr (by decide +kernel), fun h => ?_⟩
  exact absurd ((decode_encode_iff (by decide) (by decide) (by decide +kernel)).1.mp h)
    (by decide +kernel)

/-- A manifest is not kept if the delimiter is found too early. -/
theorem not_decode_encode : ¬ ∀ (delimiter : String) (fields : List String), delimiter ≠ "" →
    fields ≠ [] → (∀ f ∈ fields, f ≠ "" ∧ Text.trim f = f ∧ ¬ delimiter.toList <:+: f.toList) →
    (delimited delimiter).decode ((delimited delimiter).encode fields) = some fields := by
  intro h
  exact absurd (h "||" ["a|", "b"] (by decide) (by decide) (by decide +kernel)) (by decide +kernel)

end ManifestCodec

end Formwork
