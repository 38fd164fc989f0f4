import Formwork.Conversion.BuiltIn
import Formwork.Proofs.Text.Blank

/-!
# Round trip of localised numerals

A `Numeral` is a plain numeral as data: a sign, the digits of its whole part and those of its
fraction, with at least one digit. Any two locales may write it with other marks, but whatever the
language and the country, what `Locale.formatNumber` writes is in groups of three from the right
(`IsGrouping`) and `Locale.plainNumber` reads the same numeral back.

* `exists_isGrouping`: the groups that `groupThrees` puts marks between.
* `marks_mem`: the four pairs of marks that the tables of languages give.
* `plainFrom_grouped`, `plainFrom_fraction`: the reader over the two parts of a numeral.
* `plainFrom_of_writes`: the reader over a spelling of a numeral (`Writes`).
* `number_round_trip`: the round trip, and with it that of the integer converters.
-/

namespace Formwork

/-- A plain numeral with at least one digit. The whole part may be missing, as in `.5`, and the
fraction may have no digits, as in `5.`. -/
structure Numeral where
  negative : Bool
  whole : List Char
  fraction? : Option (List Char)
  whole_digits : ∀ c ∈ whole, c.isDigit = true
  fraction_digits : ∀ f ∈ fraction?, ∀ c ∈ f, c.isDigit = true
  has_digit : whole ≠ [] ∨ ∃ f ∈ fraction?, f ≠ []

namespace Numeral

/-- The minus sign of a negative numeral. -/
def sign (t : Numeral) : List Char := if t.negative then ['-'] else []

/-- The fraction after a mark, nothing where there is none. -/
def tail (t : Numeral) (mark : Char) : List Char := t.fraction?.elim [] (mark :: ·)

/-- The numeral without its sign. -/
def magnitude (t : Numeral) : List Char := t.whole ++ t.tail '.'

/-- The plain numeral. -/
def text (t : Numeral) : List Char := t.sign ++ t.magnitude

theorem eq_minus_of_mem_sign (t : Numeral) {c : Char} (h : c ∈ t.sign) : c = '-' := by
  unfold sign at h
  split at h
  · exact List.mem_singleton.mp h
  · cases h

theorem mem_tail (t : Numeral) {mark c : Char} (h : c ∈ t.tail mark) :
    c = mark ∨ c.isDigit = true := by
  cases hf : t.fraction? with
  | none => simp [tail, hf] at h
  | some f =>
    have h : c = mark ∨ c ∈ f := by simpa [tail, hf] using h
    exact h.imp_right (t.fraction_digits f hf c)

theorem magnitude_ne_minus (t : Numeral) (rest : List Char) : t.magnitude ≠ '-' :: rest := by
  intro h
  have hminus : '-' ∈ t.magnitude := h ▸ List.mem_cons_self
  obtain hc | hc := List.mem_append.mp hminus
  · exact absurd (t.whole_digits _ hc) (by decide)
  · exact absurd (t.mem_tail hc) (by decide)

/-- An integer as a numeral. -/
def ofInt (n : Int) : Numeral where
  negative := n < 0
  whole := Nat.toDigits 10 n.natAbs
  fraction? := none
  whole_digits := fun _ hc => Nat.isDigit_of_mem_toDigits (by decide) (by decide) hc
  fraction_digits := by simp
  has_digit := .inl Nat.toDigits_ne_nil

theorem text_ofInt (n : Int) : (ofInt n).text = (Numeric.integerText n).toList := by
  unfold Numeric.integerText
  rw [Int.toString_eq_repr, Int.repr_eq_if]
  split
  · next h =>
    have hn : n.toNat = n.natAbs := by omega
    simp [text, sign, magnitude, tail, ofInt, hn, Nat.toList_repr, Int.not_lt.mpr h]
  · next h =>
    have hn : (-n).toNat = n.natAbs := by omega
    simp [text, sign, magnitude, tail, ofInt, hn, Nat.toList_repr, Int.not_le.mp h]

end Numeral

/-! ## Digits -/

/-- The characters are in groups of three from the right: only the first group may be shorter. -/
structure IsGrouping (digits : List Char) (groups : List (List Char)) : Prop where
  flatten_eq : groups.flatten = digits
  head_length : ∀ g ∈ groups.head?, 1 ≤ g.length ∧ g.length ≤ 3
  tail_length : ∀ g ∈ groups.tail, g.length = 3

namespace IsGrouping

variable {digits : List Char} {groups : List (List Char)}

theorem ne_nil (h : IsGrouping digits groups) : ∀ g ∈ groups, g ≠ [] := by
  cases groups with
  | nil => simp
  | cons g gs =>
    intro x hx
    apply List.ne_nil_of_length_pos
    rcases List.mem_cons.mp hx with rfl | hx
    · exact (h.head_length x rfl).1
    · rw [h.tail_length x hx]
      decide

theorem length_mod {g : List Char} {gs : List (List Char)} (h : IsGrouping digits (g :: gs)) :
    g.length % 3 = digits.length % 3 := by
  have hthrees : gs.map List.length = List.replicate gs.length 3 :=
    List.eq_replicate_iff.mpr ⟨List.length_map .., by simpa using h.tail_length⟩
  have htail : gs.flatten.length = gs.length * 3 := by
    rw [List.length_flatten, hthrees, List.sum_replicate_nat]
  rw [← h.flatten_eq, List.flatten_cons, List.length_append, htail]
  omega

/-- A digit in front begins a group of its own where the rest is made of whole groups. -/
theorem cons_group {g : List Char} {gs : List (List Char)} {c : Char}
    (h : IsGrouping digits (g :: gs)) (hm : digits.length % 3 = 0) :
    IsGrouping (c :: digits) ([c] :: g :: gs) where
  flatten_eq := by rw [List.flatten_cons, h.flatten_eq, List.singleton_append]
  head_length := by simp
  tail_length := by
    have hg := h.head_length g rfl
    have hmod := h.length_mod
    intro x hx
    rcases List.mem_cons.mp hx with rfl | hx
    · omega
    · exact h.tail_length x hx

/-- A digit in front joins the first group where that is not full. -/
theorem cons_digit {g : List Char} {gs : List (List Char)} {c : Char}
    (h : IsGrouping digits (g :: gs)) (hm : digits.length % 3 ≠ 0) :
    IsGrouping (c :: digits) ((c :: g) :: gs) where
  flatten_eq := by rw [← h.flatten_eq, List.flatten_cons, List.flatten_cons, List.cons_append]
  head_length := by
    have hg := h.head_length g rfl
    have hmod := h.length_mod
    simp only [List.head?_cons, Option.mem_def, Option.some.injEq, List.length_cons,
      forall_eq']
    omega
  tail_length := h.tail_length

end IsGrouping

namespace Locale

/-- What `groupThrees` writes is groups of three from the right with the mark between them. -/
theorem exists_isGrouping (m : Char) (digits : List Char) :
    ∃ groups, IsGrouping digits groups ∧
      groupThrees m digits.length digits = [m].intercalate groups := by
  induction digits with
  | nil => exact ⟨[], ⟨rfl, by simp, by simp⟩, rfl⟩
  | cons c rest ih =>
    cases rest with
    | nil => exact ⟨[[c]], ⟨rfl, by simp, by simp⟩, rfl⟩
    | cons d rest =>
      obtain ⟨groups, hgroups, heq⟩ := ih
      obtain ⟨g, gs, rfl⟩ : ∃ g gs, groups = g :: gs := by
        refine List.exists_cons_of_ne_nil fun hnil => ?_
        have := hgroups.flatten_eq
        simp [hnil] at this
      have hleft : (c :: d :: rest).length - 1 = (d :: rest).length := rfl
      unfold groupThrees
      rw [hleft, heq]
      split
      · next hm => exact ⟨_, hgroups.cons_group hm, by simp [List.intercalate_cons_cons]⟩
      · next hm =>
        refine ⟨_, hgroups.cons_digit hm, ?_⟩
        cases gs <;> simp [List.intercalate_cons_cons]

theorem head?_groupThrees (m : Char) (left : Nat) (l : List Char) :
    (groupThrees m left l).head? = l.head? := by
  fun_cases groupThrees m left l <;> rfl

theorem getLast?_groupThrees (m : Char) (left : Nat) (l : List Char) :
    (groupThrees m left l).getLast? = l.getLast? := by
  fun_induction groupThrees m left l with
  | case1 | case2 => rfl
  | case3 left c d rest hm ih =>
    rw [List.getLast?_cons, List.getLast?_cons, ih, List.getLast?_cons (a := c)]
    simp [List.getLast?_cons]
  | case4 left c d rest hm ih => rw [List.getLast?_cons, ih, ← List.getLast?_cons]

/-! ## Marks -/

/-- The pairs of marks that the tables of languages give. -/
theorem marks_mem (l : Locale) : (l.decimalMark, l.groupingMark) ∈
    [('.', '\''), (',', '.'), (',', '\u00a0'), ('.', ',')] := by
  unfold decimalMark groupingMark
  cases l.isSwissGerman
  · cases pointGrouping.contains l.language
    · cases blankGrouping.contains l.language <;> simp
    · simp
  · simp

/-- A pair of marks that a reader can tell from each other, from signs and from digits. -/
structure Legible (decimal grouping : Char) : Prop where
  decimal_isDigit : decimal.isDigit = false
  decimal_isSpace : Text.isSpace decimal = false
  decimal_ne_minus : decimal ≠ '-'
  decimal_ne_plus : decimal ≠ '+'
  grouping_isDigit : grouping.isDigit = false
  grouping_ne_decimal : grouping ≠ decimal
  grouping_ne_minus : grouping ≠ '-'
  grouping_ne_plus : grouping ≠ '+'

theorem isGrouping_groupingMark (l : Locale) : l.isGrouping l.groupingMark = true := by
  simp [isGrouping]

/-- A locale has the three blanks as grouping marks, or its own grouping mark alone. -/
theorem mem_of_isGrouping {l : Locale} {c : Char} (hc : l.isGrouping c = true) :
    c = l.groupingMark ∨ l.groupingMark = '\u00a0' ∧ c ∈ [' ', '\u202f'] := by
  simpa [isGrouping] using hc

theorem legible_of_isGrouping {l : Locale} {c : Char} (hc : l.isGrouping c = true) :
    Legible l.decimalMark c := by
  have h := l.marks_mem
  simp only [List.mem_cons, Prod.mk.injEq, List.not_mem_nil, or_false] at h
  rcases mem_of_isGrouping hc with rfl | ⟨hblank, hc⟩
  · obtain ⟨hd, hg⟩ | ⟨hd, hg⟩ | ⟨hd, hg⟩ | ⟨hd, hg⟩ := h <;> rw [hd, hg] <;> constructor <;> decide
  · have hd : l.decimalMark = ',' := by
      rw [hblank] at h
      simpa using h
    rw [hd]
    simp only [List.mem_cons, List.not_mem_nil, or_false] at hc
    obtain rfl | rfl := hc <;> constructor <;> decide

theorem legible (l : Locale) : Legible l.decimalMark l.groupingMark :=
  legible_of_isGrouping l.isGrouping_groupingMark

/-! ## The reader -/

variable {l : Locale}

theorem plainFrom_digit {first point digit after : Bool} {c : Char} (hc : c.isDigit = true)
    (rest : List Char) : l.plainFrom first point digit after (c :: rest) =
      (l.plainFrom false point true true rest).map (c :: ·) := by
  rw [plainFrom, if_pos hc]

/-- The reader passes over a row of digits. -/
theorem plainFrom_digits {first point digit after : Bool} {digits : List Char}
    (hd : ∀ c ∈ digits, c.isDigit = true) (hne : digits ≠ []) (rest : List Char) :
    l.plainFrom first point digit after (digits ++ rest) =
      (l.plainFrom false point true true rest).map (digits ++ ·) := by
  induction digits generalizing first digit after with
  | nil => exact absurd rfl hne
  | cons c digits ih =>
    rw [List.cons_append, plainFrom_digit (hd c List.mem_cons_self)]
    cases digits with
    | nil => rfl
    | cons d digits =>
      rw [ih (fun x hx => hd x (List.mem_cons_of_mem _ hx)) (List.cons_ne_nil _ _),
        Option.map_map]
      rfl

/-- The reader drops a grouping mark after a digit of the whole part. -/
theorem plainFrom_isGrouping {digit : Bool} {c : Char} (hc : l.isGrouping c = true)
    (rest : List Char) : l.plainFrom false false digit true (c :: rest) =
      l.plainFrom false false digit false rest := by
  have hl := legible_of_isGrouping hc
  rw [plainFrom]
  simp [hl.grouping_isDigit, hl.grouping_ne_decimal, hc]

/-- At least one digit, and nothing else. -/
def IsRow (digits : List Char) : Prop := digits ≠ [] ∧ ∀ c ∈ digits, c.isDigit = true

/-- The text of a whole part and its digits: rows of digits with a grouping mark between each two of
them. -/
inductive Grouped (l : Locale) : List Char → List Char → Prop
  | row {digits : List Char} (h : IsRow digits) : Grouped l digits digits
  | mark {row text digits : List Char} {c : Char} (h : IsRow row) (hc : l.isGrouping c = true)
      (rest : Grouped l text digits) : Grouped l (row ++ c :: text) (row ++ digits)

/-- The reader takes grouped digits as the row of all of them. -/
theorem plainFrom_grouped {first digit after : Bool} {text digits : List Char}
    (h : Grouped l text digits) (rest : List Char) :
    l.plainFrom first false digit after (text ++ rest) =
      (l.plainFrom false false true true rest).map (digits ++ ·) := by
  induction h generalizing first digit after with
  | row h => exact plainFrom_digits h.2 h.1 rest
  | mark h hc _ ih =>
    rw [List.append_assoc, List.cons_append, plainFrom_digits h.2 h.1, plainFrom_isGrouping hc, ih,
      Option.map_map]
    congr 1
    funext x
    simp

theorem grouped_intercalate {groups : List (List Char)} (h : ∀ g ∈ groups, IsRow g)
    (hnil : groups ≠ []) : Grouped l ([l.groupingMark].intercalate groups) groups.flatten := by
  induction groups with
  | nil => exact absurd rfl hnil
  | cons g groups ih =>
    obtain ⟨hg, hgroups⟩ := List.forall_mem_cons.mp h
    cases groups with
    | nil => simpa using Grouped.row hg
    | cons g' groups =>
      rw [List.intercalate_cons_cons, List.append_assoc, List.flatten_cons]
      exact .mark hg l.isGrouping_groupingMark (ih hgroups (List.cons_ne_nil _ _))

/-- The reader takes the decimal mark with the digits after it, if there has been a digit or one
follows. -/
theorem plainFrom_fraction {first digit after : Bool} {fraction : List Char}
    (hd : ∀ c ∈ fraction, c.isDigit = true) (h : digit = true ∨ fraction ≠ []) :
    l.plainFrom first false digit after (l.decimalMark :: fraction) = some ('.' :: fraction) := by
  have hl := l.legible
  have hrest : l.plainFrom false true digit false fraction = some fraction := by
    by_cases hf : fraction = []
    · subst hf
      obtain rfl := h.resolve_right (· rfl)
      rfl
    · simpa [plainFrom] using plainFrom_digits (l := l) hd hf []
  rw [plainFrom]
  simp [hl.decimal_isDigit, hl.decimal_ne_minus, hl.decimal_ne_plus, hrest]

/-! ## Spellings -/

/-- The signs of a numeral: a minus sign in front of a negative one, a plus sign or nothing in front
of any other. -/
inductive Signed : Bool → List Char → Prop
  | minus : Signed true ['-']
  | plus : Signed false ['+']
  | bare : Signed false []

/-- The text of a numeral without its sign: grouped digits or nothing, and the decimal mark with the
fraction. A stray grouping mark may hang between the two. -/
def WritesMagnitude (l : Locale) (t : Numeral) (stray : Option Char) (text : List Char) : Prop :=
  ∃ whole, (whole = [] ∧ t.whole = [] ∨ Grouped l whole t.whole) ∧
    (∀ c ∈ stray, l.isGrouping c = true ∧ t.whole ≠ [] ∧ t.fraction?.isSome = true) ∧
    text = whole ++ (stray.toList ++ t.tail l.decimalMark)

/-- The text of a numeral with the marks of a locale. -/
def Writes (l : Locale) (t : Numeral) (stray : Option Char) (text : List Char) : Prop :=
  ∃ sign magnitude, Signed t.negative sign ∧ WritesMagnitude l t stray magnitude ∧
    text = sign ++ magnitude

variable {t : Numeral} {stray : Option Char} {text : List Char}

theorem plainFrom_of_writesMagnitude {first : Bool} (h : WritesMagnitude l t stray text) :
    l.plainFrom first false false false text = some t.magnitude := by
  obtain ⟨whole, ⟨rfl, hnil⟩ | hgrouped, hstray, rfl⟩ := h
  · have hnone : stray = none := Option.eq_none_iff_forall_not_mem.mpr
      fun c hc => (hstray c hc).2.1 hnil
    obtain ⟨f, hf, hne⟩ := t.has_digit.resolve_left (· hnil)
    simpa [hnone, Numeral.tail, Numeral.magnitude, hnil, Option.mem_def.mp hf] using
      plainFrom_fraction (l := l) (t.fraction_digits f hf) (.inr hne)
  · rw [plainFrom_grouped hgrouped, Numeral.magnitude]
    cases hf : t.fraction? with
    | none =>
      have hnone : stray = none := Option.eq_none_iff_forall_not_mem.mpr
        fun c hc => by simpa [hf] using (hstray c hc).2.2
      simp [hnone, Numeral.tail, hf, plainFrom]
    | some f =>
      have hread : ∀ after, l.plainFrom false false true after (l.decimalMark :: f) =
          some ('.' :: f) := fun after => plainFrom_fraction (t.fraction_digits f hf) (.inl rfl)
      cases stray with
      | none => simp [Numeral.tail, hf, hread]
      | some c => simp [Numeral.tail, hf, plainFrom_isGrouping (hstray c rfl).1, hread]

/-- The reader takes every spelling of a numeral for it. -/
theorem plainFrom_of_writes (h : Writes l t stray text) :
    l.plainFrom true false false false text = some t.text := by
  obtain ⟨sign, magnitude, hsign, hmagnitude, rfl⟩ := h
  have hread : ∀ first, l.plainFrom first false false false magnitude = some t.magnitude :=
    fun first => plainFrom_of_writesMagnitude hmagnitude
  rw [Numeral.text, Numeral.sign]
  cases hn : t.negative <;> rw [hn] at hsign <;> cases hsign
  · rw [List.singleton_append, plainFrom]
    simp [hread, show '+'.isDigit = false from rfl]
  · simp [hread]
  · rw [List.singleton_append, plainFrom]
    simp [hread, show '-'.isDigit = false from rfl]

/-! ## The numeral -/

theorem toNat_of_isDigit {c : Char} (hc : c.isDigit = true) : 48 ≤ c.toNat ∧ c.toNat ≤ 57 := by
  simpa [Char.isDigit, UInt32.le_iff_toNat_le] using hc

theorem utf8Size_of_isDigit {c : Char} (hc : c.isDigit = true) : c.utf8Size = 1 := by
  have hn := (toNat_of_isDigit hc).2
  rw [Char.utf8Size, if_pos]
  rw [UInt32.le_iff_toNat_le]
  exact hn.trans (by decide)

theorem isSpace_of_isDigit {c : Char} (hc : c.isDigit = true) : Text.isSpace c = false := by
  have hn := toNat_of_isDigit hc
  rw [Text.isSpace]
  simp only [Bool.or_eq_false_iff, Bool.and_eq_false_iff, decide_eq_false_iff_not,
    beq_eq_false_iff_ne]
  omega

/-- Digits take a byte each, so the printer counts them rightly. -/
theorem byteCount_digits {digits : List Char} (hd : ∀ c ∈ digits, c.isDigit = true) :
    byteCount digits = digits.length := by
  induction digits with
  | nil => rfl
  | cons c digits ih =>
    have hsize := utf8Size_of_isDigit (hd c List.mem_cons_self)
    have hrest := ih fun x hx => hd x (List.mem_cons_of_mem _ hx)
    simp only [byteCount, List.map_cons, List.foldr_cons] at hrest ⊢
    rw [hsize, hrest, List.length_cons, Nat.add_comm]

theorem formatMagnitude_magnitude (l : Locale) (t : Numeral) :
    l.formatMagnitude t.magnitude =
      groupThrees l.groupingMark t.whole.length t.whole ++ t.tail l.decimalMark := by
  have hwhole : ∀ c ∈ t.whole, (c != '.') = true := fun c hc => by
    rw [bne_iff_ne]
    rintro rfl
    exact absurd (t.whole_digits _ hc) (by decide)
  have htake : t.magnitude.takeWhile (· != '.') = t.whole := by
    rw [Numeral.magnitude, List.takeWhile_append_of_pos hwhole]
    cases hf : t.fraction? <;> simp [Numeral.tail, hf]
  have hdrop : t.magnitude.dropWhile (· != '.') = t.tail '.' := by
    rw [Numeral.magnitude, List.dropWhile_append_of_pos hwhole]
    cases hf : t.fraction? <;> simp [Numeral.tail, hf]
  rw [formatMagnitude, htake, hdrop, byteCount_digits t.whole_digits]
  cases hf : t.fraction? <;> simp [Numeral.tail, hf]

/-- The printer, part by part. -/
theorem formatNumber_text (l : Locale) (t : Numeral) :
    l.formatNumber t.text =
      t.sign ++ (groupThrees l.groupingMark t.whole.length t.whole ++ t.tail l.decimalMark) := by
  rw [← formatMagnitude_magnitude, Numeral.text, Numeral.sign]
  split
  · rfl
  · rw [List.nil_append, List.nil_append]
    unfold formatNumber
    split
    · next text heq => exact absurd heq (t.magnitude_ne_minus text)
    · rfl

/-- The printed numeral has no white space at its ends, although its grouping mark may be one. -/
theorem trimChars_formatNumber (l : Locale) (t : Numeral) :
    Text.trimChars (l.formatNumber t.text) = l.formatNumber t.text := by
  have hspace : ∀ c ∈ t.sign ++ (t.whole ++ t.tail l.decimalMark), Text.isSpace c = false := by
    intro c hc
    simp only [List.mem_append] at hc
    obtain hc | hc | hc := hc
    · rw [t.eq_minus_of_mem_sign hc]
      decide
    · exact isSpace_of_isDigit (t.whole_digits c hc)
    · obtain rfl | hc := t.mem_tail hc
      · exact l.legible.decimal_isSpace
      · exact isSpace_of_isDigit hc
  rw [formatNumber_text]
  refine Text.trimChars_eq_self (fun c hc => hspace c ?_) fun c hc => hspace c ?_
  · refine List.mem_of_mem_head? ?_
    simpa only [List.head?_append, head?_groupThrees] using hc
  · refine List.mem_of_mem_getLast? ?_
    simpa only [List.getLast?_append, getLast?_groupThrees] using hc

/-- What is printed is a spelling of the numeral. -/
theorem writes_formatNumber (l : Locale) (t : Numeral) :
    Writes l t none (l.formatNumber t.text) := by
  obtain ⟨groups, hgroups, heq⟩ := exists_isGrouping l.groupingMark t.whole
  refine ⟨t.sign, _, ?_, ⟨[l.groupingMark].intercalate groups, ?_, by simp, rfl⟩, ?_⟩
  · rw [Numeral.sign]
    cases t.negative
    · exact .bare
    · exact .minus
  · by_cases hnil : groups = []
    · subst hnil
      exact .inl ⟨rfl, hgroups.flatten_eq.symm⟩
    · have hrows : ∀ g ∈ groups, IsRow g := fun g hg => ⟨hgroups.ne_nil g hg, fun c hc =>
        t.whole_digits c (hgroups.flatten_eq ▸ List.mem_flatten_of_mem hg hc)⟩
      have hgrouped := grouped_intercalate (l := l) hrows hnil
      rw [hgroups.flatten_eq] at hgrouped
      exact .inr hgrouped
  · rw [formatNumber_text, heq]
    rfl

theorem plainNumber_formatNumber (l : Locale) (t : Numeral) :
    l.plainNumber (l.formatNumber t.text) = some t.text := by
  rw [plainNumber, trimChars_formatNumber]
  exact plainFrom_of_writes (writes_formatNumber l t)

/-! ## Integers -/

/-- An integer as the locale writes it. -/
def integerText (l : Locale) (n : Int) : String :=
  String.ofList (l.formatNumber (Numeric.integerText n).toList)

end Locale

namespace Numeral

variable (t : Numeral)

/-- The numeral writes an integer: there are digits in front of the point, and only zeros behind
it. -/
def isWhole : Bool := !t.whole.isEmpty && t.fraction?.all fun f => f.all (· == '0')

/-- The integer that is written in front of the point. -/
def value : Int :=
  let magnitude := Nat.ofDigitChars 10 t.whole 0
  if t.negative then -(magnitude : Int) else magnitude

theorem whole_ne_nil (h : t.isWhole = true) : t.whole ≠ [] := by
  simp only [isWhole, Bool.and_eq_true, Bool.not_eq_true', List.isEmpty_eq_false_iff] at h
  exact h.1

theorem isWhole_ofInt (n : Int) : (ofInt n).isWhole = true := by
  have hne : (Nat.toDigits 10 n.natAbs).isEmpty = false := by simp [Nat.toDigits_ne_nil]
  show (!(Nat.toDigits 10 n.natAbs).isEmpty && true) = true
  rw [hne]
  rfl

theorem value_ofInt (n : Int) : (ofInt n).value = n := by
  have hdigits : Nat.ofDigitChars 10 (ofInt n).whole 0 = n.natAbs :=
    Nat.ofDigitChars_toDigits (by decide) (by decide)
  have hneg : (ofInt n).negative = decide (n < 0) := rfl
  rw [value, hdigits, hneg]
  simp only [decide_eq_true_eq]
  split <;> omega

theorem sign_append_whole_ne_point : ∀ c ∈ t.sign ++ t.whole, (c != '.') = true := by
  intro c hc
  rw [bne_iff_ne]
  rintro rfl
  rcases List.mem_append.mp hc with hc | hc
  · exact absurd (t.eq_minus_of_mem_sign hc) (by decide)
  · exact absurd (t.whole_digits _ hc) (by decide)

/-- The digits of an integer with its sign are those in front of the point. -/
theorem wholeDigits?_text :
    wholeDigits? t.text = if t.isWhole then some (t.sign ++ t.whole) else none := by
  have htext : t.text = (t.sign ++ t.whole) ++ t.tail '.' := by
    rw [text, magnitude, List.append_assoc]
  have htake : t.text.takeWhile (· != '.') = t.sign ++ t.whole := by
    rw [htext, List.takeWhile_append_of_pos t.sign_append_whole_ne_point]
    cases hf : t.fraction? <;> simp [tail, hf]
  have hdrop : t.text.dropWhile (· != '.') = t.tail '.' := by
    rw [htext, List.dropWhile_append_of_pos t.sign_append_whole_ne_point]
    cases hf : t.fraction? <;> simp [tail, hf]
  rw [wholeDigits?, htake, hdrop]
  cases hf : t.fraction? with
  | none =>
    have hne : t.whole.isEmpty = false := by
      rw [List.isEmpty_eq_false_iff]
      refine t.has_digit.resolve_right ?_
      simp [hf]
    simp [tail, isWhole, hf, hne]
  | some f =>
    -- A sign alone is no number, nor is nothing at all.
    have hsign : (!(t.sign ++ t.whole).isEmpty && t.sign ++ t.whole != ['-']) =
        !t.whole.isEmpty := by
      cases hw : t.whole with
      | nil => cases hn : t.negative <;> simp [sign, hn]
      | cons c rest =>
        have hc : c ≠ '-' := by
          rintro rfl
          exact absurd (t.whole_digits '-' (hw ▸ List.mem_cons_self)) (by decide)
        cases hn : t.negative <;> simp [sign, hn, hc]
    simp only [tail, hf, Option.elim_some, Bool.and_assoc, hsign, isWhole, Option.all_some]
    rw [Bool.and_comm]

end Numeral

namespace Locale

theorem readDigits_row {digits : List Char} (h : IsRow digits) :
    Numeric.readDigits digits = some (Nat.ofDigitChars 10 digits 0) := by
  have hall : digits.all Char.isDigit = true := List.all_eq_true.mpr h.2
  have hne : digits.isEmpty = false := List.isEmpty_eq_false_iff.mpr h.1
  rw [Numeric.readDigits, hall, hne, if_neg (by decide)]

/-- Digits with their sign are an integer of any size. -/
theorem readSigned_whole (t : Numeral) (h : t.whole ≠ []) :
    Numeric.readSigned (t.sign ++ t.whole) = some t.value := by
  have hrow := readDigits_row ⟨h, t.whole_digits⟩
  cases hn : t.negative with
  | true => simp [Numeral.sign, Numeral.value, hn, Numeric.readSigned, hrow]
  | false =>
    have hsign : t.sign = [] := by simp [Numeral.sign, hn]
    rw [hsign, List.nil_append]
    unfold Numeric.readSigned
    split
    · next rest heq =>
      exact absurd (t.whole_digits '-' (heq ▸ List.mem_cons_self)) (by decide)
    · simp [Numeral.value, hn, hrow]

/-- Digits with their sign are an integer of 128 bits iff it is in their range. -/
theorem readWide_whole (t : Numeral) (h : t.whole ≠ []) :
    Numeric.readWide (t.sign ++ t.whole) =
      if Numeric.fitsWide t.value then some t.value else none := by
  have hread : Numeric.readWide (t.sign ++ t.whole) =
      (Numeric.readSigned (t.sign ++ t.whole)).filter Numeric.fitsWide := by
    unfold Numeric.readWide
    split
    · next digits heq =>
      have hplus : '+' ∈ t.sign ++ t.whole := heq ▸ List.mem_cons_self
      rcases List.mem_append.mp hplus with hc | hc
      · exact absurd (t.eq_minus_of_mem_sign hc) (by decide)
      · exact absurd (t.whole_digits _ hc) (by decide)
    · rfl
  rw [hread, readSigned_whole t h, Option.filter_some]

section Integer

variable {l : Locale} {text : String} {t : Numeral}

theorem readLocalInteger_eq (h : l.plainNumber text.toList = some t.text) :
    readLocalInteger l text = if t.isWhole then some t.value else none := by
  rw [readLocalInteger, h, Option.bind_some, t.wholeDigits?_text]
  split
  · next hw => exact readSigned_whole t (t.whole_ne_nil hw)
  · rfl

theorem readLocalWide_eq (h : l.plainNumber text.toList = some t.text) :
    readLocalWide l text =
      if t.isWhole then
        if Numeric.fitsWide t.value then .ok t.value else .error .tooWide
      else .error .invalid := by
  rw [readLocalWide, h, Option.bind_some, t.wholeDigits?_text]
  cases hw : t.isWhole with
  | false => rfl
  | true =>
    simp only [if_true, readWide_whole t (t.whole_ne_nil hw)]
    cases Numeric.fitsWide t.value <;> rfl

/-- Every value of an integer type has 128 bits. -/
theorem fitsWide_of_holds {k : Numeric.IntegerType} {n : Int} (h : k.holds n = true) :
    Numeric.fitsWide n = true := by
  have hbounds : k.least ≤ n ∧ n ≤ k.greatest := by
    simpa [Numeric.IntegerType.holds] using h
  have hleast : -(Nat.pow 2 127 : Nat) ≤ k.least := by cases k <;> decide
  have hgreatest : k.greatest ≤ (Nat.pow 2 127 : Nat) - 1 := by cases k <;> decide
  rw [Numeric.fitsWide, Bool.and_eq_true, decide_eq_true_eq, decide_eq_true_eq]
  exact ⟨Int.le_trans hleast hbounds.1, Int.le_trans hbounds.2 hgreatest⟩

end Integer

theorem plainNumber_integerText (l : Locale) (n : Int) :
    l.plainNumber (l.integerText n).toList = some (Numeral.ofInt n).text := by
  rw [integerText, String.toList_ofList, ← Numeral.text_ofInt, plainNumber_formatNumber]

theorem readLocalInteger_integerText (l : Locale) (n : Int) :
    readLocalInteger l (l.integerText n) = some n := by
  rw [readLocalInteger_eq (plainNumber_integerText l n), Numeral.isWhole_ofInt, if_pos rfl,
    Numeral.value_ofInt]

theorem integerConverter_integerText (l : Locale) {k : Numeric.IntegerType} {n : Int}
    (h : k.holds n = true) : integerConverter k l (l.integerText n) = .found (.integer k n) := by
  have hread : readLocalWide l (l.integerText n) = .ok n := by
    rw [readLocalWide_eq (plainNumber_integerText l n), Numeral.isWhole_ofInt, if_pos rfl,
      Numeral.value_ofInt, fitsWide_of_holds h, if_pos rfl]
  simp only [integerConverter, hread, h, if_true]

end Locale

namespace ConverterRegistry

/-- A converter that finds a value of the type adds no error to those found so far. -/
theorem convert_found {r : ConverterRegistry} {t : ScalarType} {c : Converter} {l : Locale}
    {text : String} {s : Scalar} (hc : r.converter? t = some c) (hs : c l text = .found s)
    (ht : s.type = t) (errors : List FieldError) :
    r.convert t l text errors = .ok (some s, errors) := by
  simp only [convert, hc, hs, ConversionResult.found, Converted.toScalar?, ht]
  rfl

theorem builtIn_integer (k : Numeric.IntegerType) :
    builtIn.converter? (.integer k) = some (integerConverter k) := by
  cases k <;> rfl

theorem builtIn_bigInteger : builtIn.converter? .bigInteger = some bigIntegerConverter := rfl

end ConverterRegistry

namespace Locale

/-- **Round trip of localised numerals.** In every locale a plain numeral is printed with its whole
digits in groups of three from the right, the grouping mark between them and the decimal mark in
place of the point, and what is printed is read back as the same numeral. So every value of every
integer type is converted back from its localised text without an error. -/
theorem number_round_trip (l : Locale) :
    (∀ t : Numeral,
      (∃ groups, IsGrouping t.whole groups ∧ l.formatNumber t.text =
        t.sign ++ [l.groupingMark].intercalate groups ++ t.tail l.decimalMark) ∧
      l.plainNumber (l.formatNumber t.text) = some t.text) ∧
    (∀ (k : Numeric.IntegerType) (n : Int) (errors : List FieldError), k.holds n = true →
      ConverterRegistry.builtIn.convert (.integer k) l (l.integerText n) errors =
        .ok (some (.integer k n), errors)) ∧
    ∀ (n : Int) (errors : List FieldError),
      ConverterRegistry.builtIn.convert .bigInteger l (l.integerText n) errors =
        .ok (some (.bigInteger n), errors) := by
  refine ⟨fun t => ⟨?_, plainNumber_formatNumber l t⟩, fun k n errors hn => ?_,
    fun n errors => ?_⟩
  · obtain ⟨groups, hgroups, heq⟩ := exists_isGrouping l.groupingMark t.whole
    exact ⟨groups, hgroups, by rw [formatNumber_text, heq, List.append_assoc]⟩
  · refine ConverterRegistry.convert_found (ConverterRegistry.builtIn_integer k) ?_ rfl errors
    exact integerConverter_integerText l hn
  · refine ConverterRegistry.convert_found ConverterRegistry.builtIn_bigInteger ?_ rfl errors
    simp only [bigIntegerConverter, readLocalInteger_integerText]

/-- In German `-1.234.567,50` is a localised numeral, and `-1.234.567` an integer. -/
theorem number_round_trip_german :
    Numeric.IntegerType.int64.holds (-1234567) = true ∧
      (Locale.mk "de" none).plainNumber "-1.234.567,50".toList = some "-1234567.50".toList ∧
      (Locale.mk "de" none).integerText (-1234567) = "-1.234.567" ∧
      ConverterRegistry.builtIn.convert (.integer .int64) ⟨"de", none⟩ "-1.234.567" [] =
        .ok (some (.integer .int64 (-1234567)), []) := by
  have hn : Numeric.IntegerType.int64.holds (-1234567) = true := by decide
  have htext : (Locale.mk "de" none).integerText (-1234567) = "-1.234.567" := by decide
  let t : Numeral :=
    { negative := true
      whole := "1234567".toList
      fraction? := some "50".toList
      whole_digits := List.all_eq_true.mp rfl
      fraction_digits := fun f hf => by
        obtain rfl := Option.some.inj hf
        exact List.all_eq_true.mp rfl
      has_digit := .inl nofun }
  have hprint : (Locale.mk "de" none).formatNumber t.text = "-1.234.567,50".toList := by decide
  have hread : t.text = "-1234567.50".toList := by decide
  refine ⟨hn, ?_, htext, ?_⟩
  · rw [← hprint, ← hread]
    exact ((number_round_trip ⟨"de", none⟩).1 t).2
  · rw [← htext]
    exact (number_round_trip ⟨"de", none⟩).2.1 .int64 (-1234567) [] hn

end Locale

end Formwork
