import Mathlib.Data.List.TakeWhile
import Formwork.Outcome

/-!
# Percent encoding is read back

- **UTF-8** (`lossyText_utf8`): the bytes of a text are read as the text. A first byte says how many
  follow, and each byte that follows adds six bits (`lossyFrom_last`, `lossyFrom_more`).
- **Components** (`formText_encodeComponent`): an encoded component has ASCII characters only, none
  of which separates pairs, names or values (`isPlain_of_mem_encodeByte`), and every byte of it is
  read back (`percentDecode_encodeByte`).
- **Queries** (`formPairs_append`, `formPairs_pairText`): form data is read part by part between
  ampersands, and a pair that was written as a part of a query is read as the pair.
-/

namespace Formwork.Text

/-! ## UTF-8 -/

theorem toNat_byte {n : Nat} (h : n < 256) : (UInt8.ofNat n).toNat = n :=
  UInt8.toNat_ofNat_of_lt' h

theorem firstByte_one {n : Nat} (h : n < 0x80) :
    firstByte (UInt8.ofNat n) = some (.inl (Char.ofNat n)) := by
  unfold firstByte
  rw [toNat_byte (by omega)]
  exact if_pos h

theorem firstByte_two {n : Nat} (h : 2 ≤ n) (hn : n < 32) :
    firstByte (UInt8.ofNat (n + 0xc0)) = some (.inr ⟨1, n, 0x80, 0xbf⟩) := by
  unfold firstByte
  rw [toNat_byte (by omega), if_neg (by omega), if_neg (by omega), if_pos (by omega),
    Nat.add_sub_cancel]

theorem firstByte_three {n : Nat} (hn : n < 16) :
    firstByte (UInt8.ofNat (n + 0xe0)) = some (.inr ⟨2, n, if n = 0 then 0xa0 else 0x80,
      if n = 13 then 0x9f else 0xbf⟩) := by
  unfold firstByte
  rw [toNat_byte (by omega), if_neg (by omega), if_neg (by omega), if_neg (by omega),
    if_pos (by omega), Nat.add_sub_cancel]
  simp only [Nat.add_eq_right, show n + 0xe0 = 0xed ↔ n = 13 by omega]

theorem firstByte_four {n : Nat} (hn : n < 5) :
    firstByte (UInt8.ofNat (n + 0xf0)) = some (.inr ⟨3, n, if n = 0 then 0x90 else 0x80,
      if n = 4 then 0x8f else 0xbf⟩) := by
  unfold firstByte
  rw [toNat_byte (by omega), if_neg (by omega), if_neg (by omega), if_neg (by omega),
    if_neg (by omega), if_pos (by omega), Nat.add_sub_cancel]
  simp only [Nat.add_eq_right, show n + 0xf0 = 0xf4 ↔ n = 4 by omega]

theorem lossyFrom_whole {b : UInt8} {c : Char} (h : firstByte b = some (.inl c))
    (rest : List UInt8) : lossyFrom none (b :: rest) = c :: lossyFrom none rest := by
  simp [lossyFrom, nextByte, beginChar, h]

theorem lossyFrom_first {b : UInt8} {p : PartialChar} (h : firstByte b = some (.inr p))
    (rest : List UInt8) : lossyFrom none (b :: rest) = lossyFrom (some p) rest := by
  simp [lossyFrom, nextByte, beginChar, h]

section Following

variable {bits low high d : Nat} (hd : d < 64) (hl : low ≤ d + 0x80) (hh : d + 0x80 ≤ high)
  (rest : List UInt8)
include hd hl hh

/-- The last byte of a character. -/
theorem lossyFrom_last :
    lossyFrom (some ⟨1, bits, low, high⟩) (UInt8.ofNat (d + 0x80) :: rest) =
      Char.ofNat (bits * 64 + d) :: lossyFrom none rest := by
  have hmod : (d + 0x80) % 64 = d := by omega
  rw [lossyFrom, nextByte, toNat_byte (by omega), if_pos ⟨hl, hh⟩, hmod]
  rfl

/-- A byte of a character that more bytes follow. -/
theorem lossyFrom_more (left : Nat) :
    lossyFrom (some ⟨left + 2, bits, low, high⟩) (UInt8.ofNat (d + 0x80) :: rest) =
      lossyFrom (some ⟨left + 1, bits * 64 + d, 0x80, 0xbf⟩) rest := by
  have hmod : (d + 0x80) % 64 = d := by omega
  rw [lossyFrom, nextByte, toNat_byte (by omega), if_pos ⟨hl, hh⟩, hmod]
  rfl

end Following

/-- A character is read from its bytes, whatever follows. -/
theorem lossyFrom_encodeChar (c : Char) (rest : List UInt8) :
    lossyFrom none (String.utf8EncodeChar c ++ rest) = c :: lossyFrom none rest := by
  have hvalid : c.val.toNat < 0xd800 ∨ (0xdfff < c.val.toNat ∧ c.val.toNat < 0x110000) := c.valid
  have hchar : Char.ofNat c.val.toNat = c := Char.ofNat_toNat c
  unfold String.utf8EncodeChar
  generalize c.val.toNat = v at hvalid hchar
  dsimp only
  split
  · rw [List.singleton_append, lossyFrom_whole (firstByte_one (by omega)), hchar]
  · split
    · have hfirst : v / 64 % 32 = v / 64 := by omega
      have hv : v / 64 * 64 + v % 64 = v := by omega
      rw [hfirst, List.cons_append, lossyFrom_first (firstByte_two (by omega) (by omega)),
        List.cons_append, lossyFrom_last (by omega) (by omega) (by omega), hv, hchar,
        List.nil_append]
    · split
      · have hfirst : v / 4096 % 16 = v / 4096 := by omega
        have hv : (v / 4096 * 64 + v / 64 % 64) * 64 + v % 64 = v := by omega
        -- neither an overlong form nor a surrogate
        have hlow : (if v / 4096 = 0 then 0xa0 else 0x80) ≤ v / 64 % 64 + 0x80 := by
          split <;> omega
        have hhigh : v / 64 % 64 + 0x80 ≤ if v / 4096 = 13 then 0x9f else 0xbf := by
          split <;> omega
        rw [hfirst, List.cons_append, lossyFrom_first (firstByte_three (by omega)),
          List.cons_append, lossyFrom_more (by omega) hlow hhigh, List.cons_append,
          lossyFrom_last (by omega) (by omega) (by omega), hv, hchar, List.nil_append]
      · have hfirst : v / 262144 % 8 = v / 262144 := by omega
        have hv : ((v / 262144 * 64 + v / 4096 % 64) * 64 + v / 64 % 64) * 64 + v % 64 = v := by
          omega
        have hlow : (if v / 262144 = 0 then 0x90 else 0x80) ≤ v / 4096 % 64 + 0x80 := by
          split <;> omega
        have hhigh : v / 4096 % 64 + 0x80 ≤ if v / 262144 = 4 then 0x8f else 0xbf := by
          split <;> omega
        rw [hfirst, List.cons_append, lossyFrom_first (firstByte_four (by omega)),
          List.cons_append, lossyFrom_more (by omega) hlow hhigh, List.cons_append,
          lossyFrom_more (by omega) (by omega) (by omega), List.cons_append,
          lossyFrom_last (by omega) (by omega) (by omega), hv, hchar, List.nil_append]

theorem lossyFrom_utf8 (l : List Char) : lossyFrom none (utf8 l) = l := by
  induction l with
  | nil => rfl
  | cons c l ih =>
    show lossyFrom none (String.utf8EncodeChar c ++ utf8 l) = c :: l
    rw [lossyFrom_encodeChar, ih]

/-- The bytes of a text are read as the text. -/
theorem lossyText_utf8 (s : String) : lossyText (utf8 s.toList) = s := by
  rw [lossyText, lossyFrom_utf8, String.ofList_toList]

@[simp] theorem utf8_append (l m : List Char) : utf8 (l ++ m) = utf8 l ++ utf8 m :=
  List.flatMap_append

/-- The bytes of ASCII characters are their numbers. -/
theorem utf8_ascii {l : List Char} (h : ∀ c ∈ l, c.toNat < 128) :
    utf8 l = l.map fun c => UInt8.ofNat c.toNat := by
  induction l with
  | nil => rfl
  | cons c l ih =>
    obtain ⟨hc, hl⟩ := List.forall_mem_cons.mp h
    have hone : String.utf8EncodeChar c = [UInt8.ofNat c.toNat] := if_pos (Nat.le_of_lt_succ hc)
    show String.utf8EncodeChar c ++ utf8 l = _
    rw [hone, ih hl]
    rfl

/-! ## Components -/

/-- An ASCII character that does not separate fragments, pairs, names or blanks. -/
def IsPlain (c : Char) : Prop := c.toNat < 128 ∧ c ∉ ['#', '&', '+', '=']

instance : DecidablePred IsPlain := fun c =>
  inferInstanceAs (Decidable (c.toNat < 128 ∧ c ∉ ['#', '&', '+', '=']))

theorem toNat_lt_of_isAlphanum {c : Char} (h : c.isAlphanum = true) : c.toNat < 128 := by
  have hkinds : (c.isUpper = true ∨ c.isLower = true) ∨ c.isDigit = true :=
    (Bool.or_eq_true_iff.mp h).imp_left Bool.or_eq_true_iff.mp
  rcases hkinds with (h | h) | h
  · have hle : c.val ≤ 'Z'.val := (of_decide_eq_true h).2
    exact (UInt32.le_iff_toNat_le.mp hle).trans_lt (by decide)
  · have hle : c.val ≤ 'z'.val := of_decide_eq_true (Bool.and_eq_true_iff.mp h).2
    exact (UInt32.le_iff_toNat_le.mp hle).trans_lt (by decide)
  · have hle : c.val ≤ '9'.val := of_decide_eq_true (Bool.and_eq_true_iff.mp h).2
    exact (UInt32.le_iff_toNat_le.mp hle).trans_lt (by decide)

theorem isPlain_of_isAlphanum {c : Char} (h : c.isAlphanum = true) : IsPlain c := by
  refine ⟨toNat_lt_of_isAlphanum h, fun hm => ?_⟩
  simp only [List.mem_cons, List.not_mem_nil, or_false] at hm
  rcases hm with rfl | rfl | rfl | rfl <;> exact absurd h (by decide)

theorem isPlain_of_isUnreserved {b : UInt8} (h : isUnreserved b = true) :
    IsPlain (Char.ofNat b.toNat) := by
  simp only [isUnreserved, Bool.or_eq_true, beq_iff_eq] at h
  rcases h with (((h | h) | h) | h) | h
  · exact isPlain_of_isAlphanum h
  all_goals
    rw [h]
    decide

theorem isPlain_hexUpper {n : Nat} (h : n < 16) : IsPlain (hexUpper n) := by
  have hall : ∀ n : Fin 16, IsPlain (hexUpper n) := by decide
  exact hall ⟨n, h⟩

theorem isPlain_of_mem_encodeByte {b : UInt8} {c : Char} (h : c ∈ encodeByte b) : IsPlain c := by
  have hlt : b.toNat < 256 := b.toNat_lt
  unfold encodeByte at h
  split at h
  · next hb =>
    rw [List.mem_singleton.mp h]
    exact isPlain_of_isUnreserved hb
  · simp only [List.mem_cons, List.not_mem_nil, or_false] at h
    rcases h with rfl | rfl | rfl
    · decide
    · exact isPlain_hexUpper (by omega)
    · exact isPlain_hexUpper (by omega)

theorem percentDecode_cons_of_ne {b : UInt8} (h : b ≠ 37) (rest : List UInt8) :
    percentDecode (b :: rest) = b :: percentDecode rest := by
  match rest with
  | [] => rfl
  | [_] => rfl
  | _ :: _ :: _ => rw [percentDecode, if_neg h]

theorem percentDecode_escape {h l : UInt8} {x y : Nat} (hx : hexByte? h = some x)
    (hy : hexByte? l = some y) (rest : List UInt8) :
    percentDecode (37 :: h :: l :: rest) = UInt8.ofNat (x * 16 + y) :: percentDecode rest := by
  rw [percentDecode, if_pos rfl, hx, hy]

theorem hexByte?_hexUpper {n : Nat} (h : n < 16) :
    hexByte? (UInt8.ofNat (hexUpper n).toNat) = some n := by
  have hall : ∀ n : Fin 16, hexByte? (UInt8.ofNat (hexUpper n).toNat) = some n.val := by decide
  exact hall ⟨n, h⟩

/-- The number of the character with the number of a byte. -/
theorem toNat_charOfByte (b : UInt8) : UInt8.ofNat (Char.ofNat b.toNat).toNat = b := by
  have hlt : b.toNat < 256 := b.toNat_lt
  have hvalid : b.toNat.isValidChar := .inl (by omega)
  have hchar : Char.ofNat b.toNat = Char.ofNatAux b.toNat hvalid := dif_pos hvalid
  have hnat : (Char.ofNatAux b.toNat hvalid).toNat = b.toNat := rfl
  rw [hchar, hnat, UInt8.ofNat_toNat]

theorem ne_percent_of_isUnreserved {b : UInt8} (h : isUnreserved b = true) : b ≠ 37 := by
  rintro rfl
  exact absurd h (by decide)

/-- The bytes that a byte is written as are read as the byte. -/
theorem percentDecode_encodeByte (b : UInt8) (rest : List UInt8) :
    percentDecode (utf8 (encodeByte b) ++ rest) = b :: percentDecode rest := by
  rw [utf8_ascii fun c hc => (isPlain_of_mem_encodeByte hc).1]
  unfold encodeByte
  split
  · next h =>
    rw [List.map_singleton, toNat_charOfByte, List.singleton_append,
      percentDecode_cons_of_ne (ne_percent_of_isUnreserved h)]
  · have hlt : b.toNat < 256 := b.toNat_lt
    have hvalue : b.toNat / 16 * 16 + b.toNat % 16 = b.toNat := by omega
    have hhigh : b.toNat / 16 < 16 := by omega
    have hlow : b.toNat % 16 < 16 := by omega
    simp only [List.map_cons, List.map_nil, List.cons_append, List.nil_append]
    show percentDecode (37 :: _ :: _ :: rest) = _
    rw [percentDecode_escape (hexByte?_hexUpper hhigh) (hexByte?_hexUpper hlow), hvalue,
      UInt8.ofNat_toNat]

theorem percentDecode_encodeBytes (bytes : List UInt8) :
    percentDecode (utf8 (bytes.flatMap encodeByte)) = bytes := by
  induction bytes with
  | nil => rfl
  | cons b bytes ih => rw [List.flatMap_cons, utf8_append, percentDecode_encodeByte, ih]

theorem isPlain_of_mem_encodeComponent {s : String} {c : Char}
    (h : c ∈ (encodeComponent s).toList) : IsPlain c := by
  rw [encodeComponent, String.toList_ofList] at h
  obtain ⟨b, -, hb⟩ := List.mem_flatMap.mp h
  exact isPlain_of_mem_encodeByte hb

/-- The bytes of a component are those of none of the separators. -/
theorem not_mem_utf8_encodeComponent (s : String) (sep : Char)
    (h : sep ∈ ['#', '&', '+', '=']) : UInt8.ofNat sep.toNat ∉ utf8 (encodeComponent s).toList := by
  rw [utf8_ascii fun c hc => (isPlain_of_mem_encodeComponent hc).1]
  intro hm
  obtain ⟨c, hc, he⟩ := List.mem_map.mp hm
  obtain ⟨hlt, hne⟩ := isPlain_of_mem_encodeComponent hc
  have hsep : sep.toNat < 128 := by
    simp only [List.mem_cons, List.not_mem_nil, or_false] at h
    rcases h with rfl | rfl | rfl | rfl <;> decide
  have hnat : c.toNat = sep.toNat := by
    have := congrArg UInt8.toNat he
    rwa [toNat_byte (by omega), toNat_byte (by omega)] at this
  exact hne (Char.toNat_inj.mp hnat ▸ h)

/-- **Components.** A component is read back, whatever the text. -/
theorem formText_encodeComponent (s : String) :
    formText (utf8 (encodeComponent s).toList) = s := by
  have hplus : (utf8 (encodeComponent s).toList).map (fun b => if b = 43 then 32 else b) =
      utf8 (encodeComponent s).toList := by
    refine List.map_congr_left (fun b hb => if_neg ?_) |>.trans (List.map_id _)
    rintro rfl
    exact not_mem_utf8_encodeComponent s '+' (by simp) hb
  rw [formText, hplus, encodeComponent, String.toList_ofList, percentDecode_encodeBytes,
    lossyText_utf8]

/-! ## Queries -/

/-- What stands on the two sides of an ampersand is read apart. -/
theorem formPairs_append (l m : List UInt8) :
    formPairs (l ++ 38 :: m) = formPairs l ++ formPairs m := by
  unfold formPairs
  rw [List.splitOnP_append_cons l m (by rfl), List.filter_append, List.map_append]

theorem utf8_pairText (p : String × String) : utf8 (Onward.pairText p).toList =
    utf8 (encodeComponent p.1).toList ++ 61 :: utf8 (encodeComponent p.2).toList := by
  have hequals : utf8 "=".toList = [61] := rfl
  rw [Onward.pairText, String.toList_append, String.toList_append, utf8_append, utf8_append,
    hequals, List.append_assoc, List.singleton_append]

theorem formPair_pairText (p : String × String) :
    formPair (utf8 (Onward.pairText p).toList) = p := by
  have hname : ∀ b ∈ utf8 (encodeComponent p.1).toList, (b != 61) = true := by
    intro b hb
    rw [bne_iff_ne]
    rintro rfl
    exact not_mem_utf8_encodeComponent p.1 '=' (by simp) hb
  rw [utf8_pairText, formPair, List.takeWhile_append_of_pos hname,
    List.dropWhile_append_of_pos hname]
  simp [formText_encodeComponent]

/-- A pair that was written is read as the pair. -/
theorem formPairs_pairText (p : String × String) :
    formPairs (utf8 (Onward.pairText p).toList) = [p] := by
  have hamp : (38 : UInt8) ∉ utf8 (Onward.pairText p).toList := by
    rw [utf8_pairText, List.mem_append, List.mem_cons, not_or, not_or]
    exact ⟨not_mem_utf8_encodeComponent p.1 '&' (by simp), by decide,
      not_mem_utf8_encodeComponent p.2 '&' (by simp)⟩
  have hone : ∀ b ∈ utf8 (Onward.pairText p).toList, (b == 38) = false := by
    intro b hb
    rw [beq_eq_false_iff_ne]
    rintro rfl
    exact hamp hb
  have hne : utf8 (Onward.pairText p).toList ≠ [] := by simp [utf8_pairText]
  rw [formPairs, List.splitOnP_eq_singleton hone]
  simp [hne, formPair_pairText]

/-- **Queries.** The pairs of a query are read as they were written. -/
theorem formPairs_query (pairs : List (String × String)) :
    formPairs (utf8 (String.intercalate "&" (pairs.map Onward.pairText)).toList) = pairs := by
  rw [String.toList_intercalate]
  induction pairs with
  | nil => rfl
  | cons p rest ih =>
    cases rest with
    | nil => simp [formPairs_pairText]
    | cons q rest =>
      rw [List.map_cons, List.map_cons, List.intercalate_cons_of_ne_nil (by simp), utf8_append,
        utf8_append, List.append_assoc]
      show formPairs (utf8 _ ++ 38 :: utf8 _) = _
      rw [formPairs_append, formPairs_pairText, ih, List.singleton_append]

end Formwork.Text
