import Formwork.Proofs.Append
import Formwork.Proofs.Locale.Numeral

/-!
# The grammar of localised numerals

`Locale.plainNumber` reads a text iff it is a spelling of a numeral (`Writes`): a sign, rows of
digits with a grouping mark between each two of them, and the decimal mark with more digits, where
one part or the other may be missing. A grouping mark that hangs between the last digit of the whole
part and the decimal mark is passed over.

- **Steps** (`plainFrom_cons_eq_some`): the five things that the reader does with a character.
- **Parts** (`fraction_of_plainFrom`, `exists_rest`, `exists_writes`): what was read, from the end
  of the text to its beginning.
- **Marks** (`between_of_writes`): what stands on both sides of a grouping mark.
-/

namespace Formwork.Locale

variable {l : Locale} {t : Numeral} {stray : Option Char} {c : Char}
  {text plain front back : List Char}

/-! ## Steps -/

/-- A character of an accepted text is a digit, a sign at the beginning, the decimal mark, or a
grouping mark after a digit of the whole part. -/
theorem plainFrom_cons_eq_some {first point digit after : Bool} {rest : List Char}
    (h : l.plainFrom first point digit after (c :: rest) = some plain) :
    (c.isDigit = true ∧
      ∃ more, l.plainFrom false point true true rest = some more ∧ c :: more = plain) ∨
    (first = true ∧ c = '-' ∧
      ∃ more, l.plainFrom false point digit false rest = some more ∧ '-' :: more = plain) ∨
    (first = true ∧ c = '+' ∧ l.plainFrom false point digit false rest = some plain) ∨
    (point = false ∧ c = l.decimalMark ∧
      ∃ more, l.plainFrom false true digit false rest = some more ∧ '.' :: more = plain) ∨
    (point = false ∧ after = true ∧ l.isGrouping c = true ∧
      l.plainFrom false point digit false rest = some plain) := by
  rw [plainFrom] at h
  split at h
  · next hc => exact .inl ⟨hc, Option.map_eq_some_iff.mp h⟩
  · split at h
    · next hc =>
      simp only [Bool.and_eq_true, beq_iff_eq] at hc
      exact .inr (.inl ⟨hc.1, hc.2, Option.map_eq_some_iff.mp h⟩)
    · split at h
      · next hc =>
        simp only [Bool.and_eq_true, beq_iff_eq] at hc
        exact .inr (.inr (.inl ⟨hc.1, hc.2, h⟩))
      · split at h
        · next hc =>
          simp only [Bool.and_eq_true, Bool.not_eq_true', beq_iff_eq] at hc
          exact .inr (.inr (.inr (.inl ⟨hc.2, hc.1, Option.map_eq_some_iff.mp h⟩)))
        · split at h
          · next hc =>
            simp only [Bool.and_eq_true, Bool.not_eq_true'] at hc
            exact .inr (.inr (.inr (.inr ⟨hc.1.2, hc.2, hc.1.1, h⟩)))
          · cases h

/-! ## Parts -/

/-- Behind the decimal mark the reader takes digits, and leaves them as they are. -/
theorem fraction_of_plainFrom {digit after : Bool}
    (h : l.plainFrom false true digit after text = some plain) :
    plain = text ∧ (∀ c ∈ text, c.isDigit = true) ∧ (digit = true ∨ text ≠ []) := by
  induction text generalizing digit after plain with
  | nil => cases digit <;> simp_all [plainFrom]
  | cons c rest ih =>
    rcases plainFrom_cons_eq_some h with
      ⟨hc, more, hmore, rfl⟩ | ⟨hf, -⟩ | ⟨hf, -⟩ | ⟨hp, -⟩ | ⟨hp, -⟩
    · obtain ⟨rfl, hrest, -⟩ := ih hmore
      exact ⟨rfl, List.forall_mem_cons.mpr ⟨hc, hrest⟩, .inr (List.cons_ne_nil _ _)⟩
    · cases hf
    · cases hf
    · cases hp
    · cases hp

/-- What stands behind a digit, or behind a grouping mark: the rest of the whole part with its
digits, a stray mark, and the fraction. -/
structure Rest (l : Locale) (text plain : List Char) where
  whole : List Char
  digits : List Char
  stray : Option Char
  fraction? : Option (List Char)
  text_eq : text = whole ++ (stray.toList ++ fraction?.elim [] (l.decimalMark :: ·))
  plain_eq : plain = digits ++ fraction?.elim [] ('.' :: ·)
  fraction_digits : ∀ f ∈ fraction?, ∀ c ∈ f, c.isDigit = true
  stray_grouping : ∀ c ∈ stray, l.isGrouping c = true ∧ fraction?.isSome = true

namespace Rest

/-- The rest with a digit in front. -/
def digit (r : Rest l text plain) (c : Char) : Rest l (c :: text) (c :: plain) :=
  { r with
    whole := c :: r.whole
    digits := c :: r.digits
    text_eq := congrArg (c :: ·) r.text_eq
    plain_eq := congrArg (c :: ·) r.plain_eq }

/-- The rest with a grouping mark in front. -/
def mark (r : Rest l text plain) (c : Char) : Rest l (c :: text) plain :=
  { r with
    whole := c :: r.whole
    text_eq := congrArg (c :: ·) r.text_eq }

/-- A fraction as the rest. -/
def ofFraction {fraction : List Char} (h : ∀ c ∈ fraction, c.isDigit = true) :
    Rest l (l.decimalMark :: fraction) ('.' :: fraction) where
  whole := []
  digits := []
  stray := none
  fraction? := some fraction
  text_eq := rfl
  plain_eq := rfl
  fraction_digits := by simpa using h
  stray_grouping := by simp

/-- Right after a digit the rest goes on with the row of that digit. Otherwise, behind a grouping
mark, it begins with a row of its own, or else the mark was a stray one. -/
def Follows (r : Rest l text plain) : Bool → Prop
  | true => ∀ row, IsRow row → Grouped l (row ++ r.whole) (row ++ r.digits)
  | false => Grouped l r.whole r.digits ∨
      r.whole = [] ∧ r.digits = [] ∧ r.stray = none ∧ r.fraction?.isSome = true

end Rest

theorem IsRow.snoc {row : List Char} (h : IsRow row) (hc : c.isDigit = true) :
    IsRow (row ++ [c]) :=
  ⟨by simp, List.forall_mem_append.mpr ⟨h.2, by simpa using hc⟩⟩

theorem isRow_singleton (hc : c.isDigit = true) : IsRow [c] := ⟨by simp, by simpa using hc⟩

/-- What the reader takes once there has been a digit. -/
theorem exists_rest {after : Bool} (h : l.plainFrom false false true after text = some plain) :
    ∃ r : Rest l text plain, r.Follows after := by
  induction text generalizing after plain with
  | nil =>
    cases after with
    | false => cases h
    | true =>
      cases h
      refine ⟨⟨[], [], none, none, rfl, rfl, by simp, by simp⟩, fun row hrow => ?_⟩
      simpa using Grouped.row hrow
  | cons c rest ih =>
    rcases plainFrom_cons_eq_some h with
      ⟨hc, more, hmore, rfl⟩ | ⟨hf, -⟩ | ⟨hf, -⟩ | ⟨-, rfl, more, hmore, rfl⟩ | ⟨-, rfl, hc, hrest⟩
    · obtain ⟨r, hr⟩ := ih hmore
      refine ⟨r.digit c, ?_⟩
      cases after with
      | false => exact .inl (hr [c] (isRow_singleton hc))
      | true =>
        intro row hrow
        simpa [Rest.digit] using hr (row ++ [c]) (hrow.snoc hc)
    · cases hf
    · cases hf
    · obtain ⟨rfl, hdigits, -⟩ := fraction_of_plainFrom hmore
      refine ⟨.ofFraction hdigits, ?_⟩
      cases after with
      | false => exact .inr ⟨rfl, rfl, rfl, rfl⟩
      | true =>
        intro row hrow
        simpa [Rest.ofFraction] using Grouped.row hrow
    · obtain ⟨r, hgrouped | ⟨hwhole, hdigits, hstray, hfraction⟩⟩ := ih hrest
      · exact ⟨r.mark c, fun row hrow => .mark hrow hc hgrouped⟩
      · -- No digit follows, so the mark hangs in front of the fraction.
        refine ⟨⟨[], [], some c, r.fraction?, ?_, ?_, r.fraction_digits, ?_⟩, fun row hrow => ?_⟩
        · simpa [hwhole, hstray] using r.text_eq
        · simpa [hdigits] using r.plain_eq
        · simpa using ⟨hc, hfraction⟩
        · simpa using Grouped.row hrow

theorem Grouped.isRow {digits : List Char} (h : Grouped l text digits) : IsRow digits := by
  induction h with
  | row h => exact h
  | mark h _ _ ih =>
    exact ⟨by simp [h.1], List.forall_mem_append.mpr ⟨h.2, ih.2⟩⟩

/-- What the reader takes behind the sign is a numeral without one. -/
theorem exists_writesMagnitude (negative : Bool)
    (h : l.plainFrom false false false false text = some plain) :
    ∃ t stray, t.negative = negative ∧ WritesMagnitude l t stray text ∧ t.magnitude = plain := by
  cases text with
  | nil => cases h
  | cons c rest =>
    rcases plainFrom_cons_eq_some h with
      ⟨hc, more, hmore, rfl⟩ | ⟨hf, -⟩ | ⟨hf, -⟩ | ⟨-, rfl, more, hmore, rfl⟩ | ⟨-, ha, -⟩
    · obtain ⟨r, hr⟩ := exists_rest hmore
      have hgrouped : Grouped l (c :: r.whole) (c :: r.digits) := hr [c] (isRow_singleton hc)
      refine ⟨⟨negative, c :: r.digits, r.fraction?, hgrouped.isRow.2, r.fraction_digits,
        .inl (List.cons_ne_nil _ _)⟩, r.stray, rfl, ⟨c :: r.whole, .inr hgrouped, ?_, ?_⟩, ?_⟩
      · intro c hc
        exact ⟨(r.stray_grouping c hc).1, List.cons_ne_nil _ _, (r.stray_grouping c hc).2⟩
      · exact congrArg (c :: ·) r.text_eq
      · exact congrArg (c :: ·) r.plain_eq.symm
    · cases hf
    · cases hf
    · obtain ⟨rfl, hdigits, hsome⟩ := fraction_of_plainFrom hmore
      exact ⟨⟨negative, [], some more, by simp, by simpa using hdigits,
        .inr ⟨more, rfl, hsome.resolve_left Bool.false_ne_true⟩⟩, none, rfl,
        ⟨[], .inl ⟨rfl, rfl⟩, by simp, rfl⟩, rfl⟩
    · cases ha

/-- What the reader takes is a spelling of the numeral that it gives. -/
theorem exists_writes (h : l.plainFrom true false false false text = some plain) :
    ∃ t stray, Writes l t stray text ∧ t.text = plain := by
  cases text with
  | nil => cases h
  | cons c rest =>
    by_cases hminus : c = '-'
    · subst hminus
      rw [plainFrom] at h
      obtain ⟨more, hmore, rfl⟩ := Option.map_eq_some_iff.mp h
      obtain ⟨t, stray, hneg, hwrites, rfl⟩ := exists_writesMagnitude true hmore
      refine ⟨t, stray, ⟨['-'], rest, ?_, hwrites, rfl⟩, by simp [Numeral.text, Numeral.sign, hneg]⟩
      rw [hneg]
      exact .minus
    · by_cases hplus : c = '+'
      · subst hplus
        rw [plainFrom] at h
        obtain ⟨t, stray, hneg, hwrites, rfl⟩ := exists_writesMagnitude false h
        refine ⟨t, stray, ⟨['+'], rest, ?_, hwrites, rfl⟩,
          by simp [Numeral.text, Numeral.sign, hneg]⟩
        rw [hneg]
        exact .plus
      · have hbare : l.plainFrom false false false false (c :: rest) = some plain := by
          simpa [plainFrom, hminus, hplus] using h
        obtain ⟨t, stray, hneg, hwrites, rfl⟩ := exists_writesMagnitude false hbare
        refine ⟨t, stray, ⟨[], c :: rest, ?_, hwrites, rfl⟩,
          by simp [Numeral.text, Numeral.sign, hneg]⟩
        rw [hneg]
        exact .bare

theorem plainNumber_eq_some_iff :
    l.plainNumber text = some plain ↔
      ∃ t stray, Writes l t stray (Text.trimChars text) ∧ t.text = plain := by
  constructor
  · exact exists_writes
  · rintro ⟨t, stray, hwrites, rfl⟩
    exact plainFrom_of_writes hwrites

/-! ## Marks -/

theorem IsRow.head {row : List Char} (h : IsRow row) : ∃ d ∈ row.head?, d.isDigit = true :=
  ⟨row.head h.1, List.head?_eq_some_head h.1, h.2 _ (List.head_mem h.1)⟩

theorem IsRow.last {row : List Char} (h : IsRow row) : ∃ d ∈ row.getLast?, d.isDigit = true :=
  ⟨row.getLast h.1, List.getLast?_eq_some_getLast h.1, h.2 _ (List.getLast_mem h.1)⟩

theorem not_mem_row (hc : l.isGrouping c = true) {row : List Char}
    (h : ∀ d ∈ row, d.isDigit = true) : c ∉ row := fun hm => by
  have hdigit := h c hm
  rw [(legible_of_isGrouping hc).grouping_isDigit] at hdigit
  cases hdigit

theorem Signed.eq_or_eq {negative : Bool} {sign : List Char} (h : Signed negative sign)
    (hc : c ∈ sign) : c = '-' ∨ c = '+' := by
  cases h with
  | minus => exact .inl (List.mem_singleton.mp hc)
  | plus => exact .inr (List.mem_singleton.mp hc)
  | bare => cases hc

namespace Grouped

variable {digits : List Char}

theorem head (h : Grouped l text digits) : ∃ d ∈ text.head?, d.isDigit = true := by
  cases h with
  | row h => exact h.head
  | mark h =>
    obtain ⟨d, hd, hdigit⟩ := h.head
    exact ⟨d, by simp [List.head?_append, Option.mem_def.mp hd], hdigit⟩

theorem last (h : Grouped l text digits) : ∃ d ∈ text.getLast?, d.isDigit = true := by
  induction h with
  | row h => exact h.last
  | mark _ _ _ ih =>
    obtain ⟨d, hd, hdigit⟩ := ih
    exact ⟨d, by simp [List.getLast?_append, List.getLast?_cons, Option.mem_def.mp hd], hdigit⟩

theorem isDigit_or_isGrouping (h : Grouped l text digits) :
    ∀ d ∈ text, d.isDigit = true ∨ l.isGrouping d = true := by
  induction h with
  | row h => exact fun d hd => .inl (h.2 d hd)
  | mark h hc _ ih =>
    intro d hd
    rcases List.mem_append.mp hd with hd | hd
    · exact .inl (h.2 d hd)
    · rcases List.mem_cons.mp hd with rfl | hd
      · exact .inr hc
      · exact ih d hd

/-- A grouping mark of a whole part stands between two digits. -/
theorem between (h : Grouped l text digits) (hc : l.isGrouping c = true)
    (heq : text = front ++ c :: back) :
    (∃ d ∈ front.getLast?, d.isDigit = true) ∧ ∃ d ∈ back.head?, d.isDigit = true := by
  induction h generalizing front with
  | row h => exact absurd (heq ▸ by simp) (not_mem_row hc h.2)
  | mark h hm hrest ih =>
    rcases append_eq_append_cons heq with ⟨more, hrow, -⟩ | ⟨more, rfl, hmore⟩
    · exact absurd (hrow ▸ by simp) (not_mem_row hc h.2)
    · cases more with
      | nil =>
        obtain ⟨rfl, rfl⟩ := List.cons.inj hmore
        exact ⟨by simpa using h.last, hrest.head⟩
      | cons x more =>
        obtain ⟨⟨d, hd, hdigit⟩, hhead⟩ := ih (List.cons.inj hmore).2
        refine ⟨⟨d, ?_, hdigit⟩, hhead⟩
        simp [List.getLast?_append, List.getLast?_cons, Option.mem_def.mp hd]

end Grouped

/-- A grouping mark of a numeral stands behind a digit of the whole part, and in front of another
one, unless it is the stray mark in front of the decimal mark. -/
theorem between_of_writes (h : Writes l t stray text) (hc : l.isGrouping c = true)
    (heq : text = front ++ c :: back) :
    l.decimalMark ∉ front ∧ (∃ d ∈ front.getLast?, d.isDigit = true) ∧
      ((∃ d ∈ back.head?, d.isDigit = true) ∨
        stray = some c ∧ back.head? = some l.decimalMark) := by
  obtain ⟨sign, magnitude, hsign, ⟨whole, hwhole, hstray, rfl⟩, rfl⟩ := h
  have hl := legible_of_isGrouping hc
  have hnotsign : c ∉ sign := fun hm =>
    (hsign.eq_or_eq hm).elim hl.grouping_ne_minus hl.grouping_ne_plus
  have hsignmark : l.decimalMark ∉ sign := fun hm =>
    (hsign.eq_or_eq hm).elim hl.decimal_ne_minus hl.decimal_ne_plus
  have hwholemark : l.decimalMark ∉ whole := by
    rcases hwhole with ⟨rfl, -⟩ | hgrouped
    · exact List.not_mem_nil
    · intro hm
      rcases hgrouped.isDigit_or_isGrouping _ hm with hd | hg
      · rw [hl.decimal_isDigit] at hd
        cases hd
      · exact (legible_of_isGrouping hg).grouping_ne_decimal rfl
  have hnottail : c ∉ t.tail l.decimalMark := by
    intro hm
    rcases t.mem_tail hm with rfl | hd
    · exact hl.grouping_ne_decimal rfl
    · rw [hl.grouping_isDigit] at hd
      cases hd
  rcases append_eq_append_cons heq with ⟨more, rfl, -⟩ | ⟨front, rfl, hmagnitude⟩
  · exact absurd (by simp) hnotsign
  rcases append_eq_append_cons hmagnitude with ⟨more, rfl, rfl⟩ | ⟨more, rfl, hafter⟩
  · obtain ⟨hnil, -⟩ | hgrouped := hwhole
    · simp at hnil
    · obtain ⟨⟨d, hd, hdigit⟩, ⟨e, he, hedigit⟩⟩ := hgrouped.between hc rfl
      refine ⟨?_, ⟨d, ?_, hdigit⟩, .inl ⟨e, ?_, hedigit⟩⟩
      · simp only [List.mem_append, not_or] at hwholemark ⊢
        exact ⟨hsignmark, hwholemark.1⟩
      · simp [List.getLast?_append, Option.mem_def.mp hd]
      · simp [List.head?_append, Option.mem_def.mp he]
  · -- The mark is not in the whole part nor in the fraction, so it is the stray one.
    obtain ⟨m, hm⟩ : ∃ m, stray = some m := by
      refine Option.ne_none_iff_exists'.mp fun hnone => hnottail ?_
      rw [hnone] at hafter
      simp only [Option.toList_none, List.nil_append] at hafter
      simp [hafter]
    subst hm
    obtain ⟨-, hne, hfraction⟩ := hstray m rfl
    obtain ⟨f, hf⟩ := Option.isSome_iff_exists.mp hfraction
    cases more with
    | cons x more =>
      have htail : t.tail l.decimalMark = more ++ c :: back := (List.cons.inj hafter).2
      exact absurd (htail ▸ by simp) hnottail
    | nil =>
      obtain ⟨rfl, rfl⟩ := List.cons.inj hafter
      obtain ⟨d, hd, hdigit⟩ := (hwhole.resolve_left fun h => hne h.2).last
      refine ⟨?_, ⟨d, ?_, hdigit⟩, .inr ⟨rfl, by simp [Numeral.tail, hf]⟩⟩
      · simp only [List.append_nil, List.mem_append, not_or]
        exact ⟨hsignmark, hwholemark⟩
      · simp [List.getLast?_append, Option.mem_def.mp hd]

/-- A grouping mark hangs right in front of the decimal mark. -/
def Strays (l : Locale) (text : List Char) : Prop :=
  ∃ front c back, l.isGrouping c = true ∧ text = front ++ c :: l.decimalMark :: back

theorem not_strays_of_writes (h : Writes l t none text) : ¬ l.Strays text := by
  rintro ⟨front, c, back, hc, heq⟩
  obtain ⟨-, -, ⟨d, hd, hdigit⟩ | ⟨hstray, -⟩⟩ := between_of_writes h hc heq
  · obtain rfl : l.decimalMark = d := Option.some.inj hd
    rw [l.legible.decimal_isDigit] at hdigit
    cases hdigit
  · cases hstray

theorem strays_of_writes (h : Writes l t (some c) text) : l.Strays text := by
  obtain ⟨sign, magnitude, -, ⟨whole, -, hstray, rfl⟩, rfl⟩ := h
  obtain ⟨hc, -, hfraction⟩ := hstray c rfl
  obtain ⟨f, hf⟩ := Option.isSome_iff_exists.mp hfraction
  exact ⟨sign ++ whole, c, f, hc, by simp [Numeral.tail, hf]⟩

/-- **The grammar of localised numerals.** A text is read iff it is, without the white space at its
ends, a sign or nothing, rows of digits with a grouping mark between each two of them, and the
decimal mark with more digits. At least one digit is there, and a grouping mark may hang in front of
the decimal mark. What is read is the minus sign, the digits, and a point for the decimal mark. So
the texts that are read are the spellings without such a mark, and those that have one; in all of
them a grouping mark follows a digit of the whole part, and a digit or the decimal mark follows
it. -/
theorem plainNumber_accepts (l : Locale) (text plain : List Char) :
    (l.plainNumber text = some plain ↔
      ∃ t stray, Writes l t stray (Text.trimChars text) ∧ t.text = plain) ∧
    ((∃ t, Writes l t none (Text.trimChars text) ∧ t.text = plain) ↔
      l.plainNumber text = some plain ∧ ¬ l.Strays (Text.trimChars text)) ∧
    (l.plainNumber text = some plain → ∀ front c back, l.isGrouping c = true →
      Text.trimChars text = front ++ c :: back →
      l.decimalMark ∉ front ∧ (∃ d ∈ front.getLast?, d.isDigit = true) ∧
        ∃ d ∈ back.head?, d.isDigit = true ∨ d = l.decimalMark) := by
  refine ⟨plainNumber_eq_some_iff, ⟨?_, ?_⟩, fun h front c back hc heq => ?_⟩
  · rintro ⟨t, hwrites, ht⟩
    exact ⟨plainNumber_eq_some_iff.mpr ⟨t, none, hwrites, ht⟩, not_strays_of_writes hwrites⟩
  · rintro ⟨h, hstrays⟩
    obtain ⟨t, stray, hwrites, ht⟩ := plainNumber_eq_some_iff.mp h
    cases stray with
    | none => exact ⟨t, hwrites, ht⟩
    | some c => exact absurd (strays_of_writes hwrites) hstrays
  · obtain ⟨t, stray, hwrites, -⟩ := plainNumber_eq_some_iff.mp h
    obtain ⟨hmark, hlast, ⟨d, hd, hdigit⟩ | ⟨-, hhead⟩⟩ := between_of_writes hwrites hc heq
    · exact ⟨hmark, hlast, d, hd, .inl hdigit⟩
    · exact ⟨hmark, hlast, _, hhead, .inr rfl⟩

/-- American English takes `1,.5` for `1.5`, although its grouping mark is not between two digits.
The one in ` +1,234.5` is. -/
theorem plainNumber_accepts_strayMark :
    us.plainNumber "1,.5".toList = some "1.5".toList ∧
      (¬ ∃ t, Writes us t none (Text.trimChars "1,.5".toList) ∧ t.text = "1.5".toList) ∧
      us.plainNumber " +1,234.5".toList = some "1234.5".toList ∧
      us.decimalMark ∉ "+1".toList ∧ (∃ d ∈ "+1".toList.getLast?, d.isDigit = true) ∧
      ∃ d ∈ "234.5".toList.head?, d.isDigit = true ∨ d = us.decimalMark := by
  have hstrays : us.Strays (Text.trimChars "1,.5".toList) :=
    ⟨['1'], ',', ['5'], by decide, by decide⟩
  have hplain : us.plainNumber " +1,234.5".toList = some "1234.5".toList := by decide
  refine ⟨by decide, fun h => ?_, hplain, ?_⟩
  · exact ((plainNumber_accepts us "1,.5".toList "1.5".toList).2.1.mp h).2 hstrays
  · exact (plainNumber_accepts us " +1,234.5".toList "1234.5".toList).2.2 hplain
      "+1".toList ',' "234.5".toList (by decide) (by decide)

end Formwork.Locale
