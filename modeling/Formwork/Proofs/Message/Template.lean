import Mathlib.Algebra.Order.Ring.Nat
import Formwork.Message.Template
import Formwork.Proofs.Locale.Numeral
import Formwork.Proofs.Path.Grammar

/-!
# What a template and its parameters give

- **Places** (`placeIndex?_eq_some_iff`): between the braces of a place stands the number of a
  parameter, with blanks around it. So neither brace can stand there (`IsPlace.brace_not_mem`).
- **Pieces** (`Cut`): a template is cut into places and characters that stand for themselves, by
  what follows each brace. There is one way to cut it (`exists_cut`, `Cut.unique`), and the pieces
  in front of a brace do not hang on what follows it (`Cut.append`).
- **Filling** (`Cut.fillPlaces_eq`): the parameters stand in the places, and the rest of the
  template is copied. `formatTemplate_cut` puts this together.
-/

namespace Formwork

open Text Formwork.Locale

/-! ## Places -/

/-- The number `i` in decimal, with blanks around it. A plus sign may stand in front. -/
structure WritesIndex (text : List Char) (i : Nat) : Prop where
  written : ∃ left sign digits right, text = left ++ (sign ++ digits) ++ right ∧
    (∀ c ∈ left, isSpace c = true) ∧ (∀ c ∈ right, isSpace c = true) ∧
    (sign = [] ∨ sign = ['+']) ∧ IsRow digits ∧ Nat.ofDigitChars 10 digits 0 = i
  /-- An index has 64 bits. -/
  lt : i < 2 ^ 64

/-- What stands between the braces of a place for one of `count` parameters. -/
structure IsPlace (count : Nat) (body : List Char) (i : Nat) : Prop where
  index : WritesIndex body i
  lt : i < count

theorem readDigits_eq_some_iff {text : List Char} {n : Nat} :
    Numeric.readDigits text = some n ↔ IsRow text ∧ Nat.ofDigitChars 10 text 0 = n := by
  rw [Numeric.readDigits, IsRow]
  simp [not_or]

theorem holds_size_iff {n : Int} :
    Numeric.IntegerType.size.holds n = true ↔ 0 ≤ n ∧ n < 2 ^ 64 := by
  simp [Numeric.IntegerType.holds, Numeric.IntegerType.least, Numeric.IntegerType.greatest,
    Numeric.IntegerType.signed, Numeric.IntegerType.bits]
  omega

/-- An index is written as digits, with or without a plus sign. -/
theorem readInteger_size_eq_some_iff {text : List Char} {i : Nat} :
    Numeric.readInteger .size text = some (i : Int) ↔
      ∃ sign digits, text = sign ++ digits ∧ (sign = [] ∨ sign = ['+']) ∧ IsRow digits ∧
        Nat.ofDigitChars 10 digits 0 = i ∧ i < 2 ^ 64 := by
  have hdigit : ∀ {c : Char} {rest : List Char}, IsRow (c :: rest) → c.isDigit = true :=
    fun h => h.2 _ (List.mem_cons_self ..)
  have hholds : Numeric.IntegerType.size.holds (i : Int) = true ↔ i < 2 ^ 64 := by
    rw [holds_size_iff]
    omega
  have hcast : ∀ digits, (Option.map (fun n : Int => n) do
      let n ← Numeric.readDigits digits
      pure (n : Int)) = some (i : Int) ↔ IsRow digits ∧ Nat.ofDigitChars 10 digits 0 = i := by
    intro digits
    rw [← readDigits_eq_some_iff]
    cases Numeric.readDigits digits with
    | none => exact iff_of_false (by simp) (by simp)
    | some n =>
      show some (n : Int) = some (i : Int) ↔ some n = some i
      rw [Option.some_inj, Option.some_inj, Int.natCast_inj]
  unfold Numeric.readInteger
  rw [Option.filter_eq_some_iff, hholds]
  split
  · next digits =>
    rw [hcast]
    constructor
    · rintro ⟨⟨hrow, hvalue⟩, hlt⟩
      exact ⟨['+'], digits, rfl, .inr rfl, hrow, hvalue, hlt⟩
    · rintro ⟨sign, row, happend, rfl | rfl, hrow, hvalue, hlt⟩
      · rw [List.nil_append] at happend
        exact absurd (hdigit (happend ▸ hrow)) (by decide)
      · obtain rfl := (List.cons.inj happend).2
        exact ⟨⟨hrow, hvalue⟩, hlt⟩
  · next digits =>
    refine iff_of_false (fun h => by simp [Numeric.IntegerType.signed] at h) ?_
    rintro ⟨sign, row, happend, rfl | rfl, hrow, -, -⟩
    · rw [List.nil_append] at happend
      exact absurd (hdigit (happend ▸ hrow)) (by decide)
    · exact absurd (List.cons.inj happend).1 (by decide)
  · next hplus hminus =>
    rw [hcast]
    constructor
    · rintro ⟨⟨hrow, hvalue⟩, hlt⟩
      exact ⟨[], text, rfl, .inl rfl, hrow, hvalue, hlt⟩
    · rintro ⟨sign, row, rfl, rfl | rfl, hrow, hvalue, hlt⟩
      · exact ⟨⟨hrow, hvalue⟩, hlt⟩
      · exact absurd rfl (hplus row)

theorem placeIndex?_eq_some_iff {text : List Char} {i : Nat} :
    placeIndex? text = some i ↔ WritesIndex text i := by
  have hread : placeIndex? text = some i ↔
      Numeric.readInteger .size (trimChars text) = some (i : Int) := by
    rw [placeIndex?, Option.map_eq_some_iff]
    constructor
    · rintro ⟨n, hn, rfl⟩
      obtain ⟨hpos, -⟩ := holds_size_iff.mp (Option.filter_eq_some_iff.mp hn).2
      rw [Int.toNat_of_nonneg hpos]
      exact hn
    · exact fun h => ⟨i, h, rfl⟩
  rw [hread, readInteger_size_eq_some_iff]
  constructor
  · rintro ⟨sign, digits, htrim, hsign, hrow, hvalue, hlt⟩
    obtain ⟨left, right, htext, hleft, hright⟩ := exists_trimChars text
    exact ⟨⟨left, sign, digits, right, htrim ▸ htext, hleft, hright, hsign, hrow, hvalue⟩, hlt⟩
  · rintro ⟨⟨left, sign, digits, right, rfl, hleft, hright, hsign, hrow, hvalue⟩, hlt⟩
    refine ⟨sign, digits, trimChars_append hleft (fun c hc => ?_) hright, hsign, hrow, hvalue, hlt⟩
    rcases List.mem_append.mp hc with hc | hc
    · rcases hsign with rfl | rfl
      · cases hc
      · rw [List.mem_singleton.mp hc]
        decide
    · exact isSpace_of_isDigit (hrow.2 c hc)

/-- Neither brace is a part of an index. -/
theorem WritesIndex.brace_not_mem {text : List Char} {i : Nat} (h : WritesIndex text i) :
    '\x7b' ∉ text ∧ '\x7d' ∉ text := by
  obtain ⟨⟨left, sign, digits, right, rfl, hleft, hright, hsign, hrow, -⟩, -⟩ := h
  have hall : ∀ c ∈ left ++ (sign ++ digits) ++ right,
      isSpace c = true ∨ c = '+' ∨ c.isDigit = true := by
    intro c hc
    simp only [List.mem_append] at hc
    obtain (hc | hc | hc) | hc := hc
    · exact .inl (hleft c hc)
    · rcases hsign with rfl | rfl
      · cases hc
      · exact .inr (.inl (List.mem_singleton.mp hc))
    · exact .inr (.inr (hrow.2 c hc))
    · exact .inl (hright c hc)
  exact ⟨fun hmem => absurd (hall _ hmem) (by decide), fun hmem => absurd (hall _ hmem) (by decide)⟩

/-- A place opens at the first character of the text. -/
def OpensPlace (count : Nat) (text : List Char) : Prop :=
  ∃ body i rest, text = '\x7b' :: (body ++ '\x7d' :: rest) ∧ IsPlace count body i

/-! ## Pieces -/

/-- A piece of a template. -/
inductive TemplatePiece where
  | literal (c : Char)
  | place (index : Nat)
  deriving DecidableEq

/-- What a piece gives with parameters. -/
def TemplatePiece.text (parameters : List String) : TemplatePiece → List Char
  | literal c => [c]
  | place i => (parameters.getD i "").toList

/-- The pieces of a template for `count` parameters. -/
inductive Cut (count : Nat) : List Char → List TemplatePiece → Prop
  | nil : Cut count [] []
  /-- A character at which no place opens stands for itself. -/
  | literal {c : Char} {rest : List Char} {pieces : List TemplatePiece}
      (hc : ¬ OpensPlace count (c :: rest)) (h : Cut count rest pieces) :
      Cut count (c :: rest) (.literal c :: pieces)
  | place {body rest : List Char} {i : Nat} {pieces : List TemplatePiece}
      (hb : IsPlace count body i) (h : Cut count rest pieces) :
      Cut count ('\x7b' :: (body ++ '\x7d' :: rest)) (.place i :: pieces)

variable {count : Nat} {text rest : List Char} {pieces : List TemplatePiece}

theorem exists_cut (count : Nat) (text : List Char) : ∃ pieces, Cut count text pieces := by
  induction h : text.length using Nat.strong_induction_on generalizing text with
  | _ n ih =>
    subst h
    cases text with
    | nil => exact ⟨[], .nil⟩
    | cons c rest =>
      by_cases hc : OpensPlace count (c :: rest)
      · obtain ⟨body, i, after, heq, hb⟩ := hc
        obtain ⟨pieces, hp⟩ := ih after.length (by rw [heq]; simp; omega) after rfl
        exact ⟨.place i :: pieces, heq ▸ .place hb hp⟩
      · obtain ⟨pieces, hp⟩ := ih rest.length (by simp) rest rfl
        exact ⟨.literal c :: pieces, .literal hc hp⟩

/-- The number that a text writes. -/
theorem WritesIndex.unique {i j : Nat} (hi : WritesIndex text i) (hj : WritesIndex text j) :
    i = j :=
  Option.some.inj ((placeIndex?_eq_some_iff.mpr hi).symm.trans (placeIndex?_eq_some_iff.mpr hj))

/-- There is one way to cut a template. -/
theorem Cut.unique {others : List TemplatePiece} (h : Cut count text pieces)
    (ho : Cut count text others) : others = pieces := by
  induction h generalizing others with
  | nil =>
    cases ho
    rfl
  | literal hc _ ih =>
    cases ho with
    | literal _ ho => rw [ih ho]
    | place hb _ => exact absurd ⟨_, _, _, rfl, hb⟩ hc
  | place hb _ ih =>
    generalize htext : '\x7b' :: _ = text at ho
    cases ho with
    | nil => cases htext
    | literal hc _ => exact absurd ⟨_, _, _, htext.symm, hb⟩ hc
    | place hb' ho =>
      obtain ⟨rfl, rfl⟩ := cut_unique hb.index.brace_not_mem.2 hb'.index.brace_not_mem.2
        (List.cons.inj htext).2
      rw [ih ho, hb.index.unique hb'.index]

/-- A place does not reach over a brace. -/
theorem opensPlace_append_iff {c : Char} {before : List Char} :
    OpensPlace count (c :: (before ++ '\x7b' :: rest)) ↔ OpensPlace count (c :: before) := by
  constructor
  · rintro ⟨body, i, after, heq, hb⟩
    obtain ⟨rfl, happend⟩ := List.cons.inj heq
    have hbrace := hb.index.brace_not_mem
    rcases List.append_eq_append_iff.mp happend with ⟨more, rfl, hmore⟩ | ⟨more, rfl, hmore⟩
    · -- The second brace would be in the body, or close it.
      cases more with
      | nil => cases (List.cons.inj hmore).1
      | cons d more =>
        obtain ⟨rfl, -⟩ := List.cons.inj hmore
        exact absurd (by simp) hbrace.1
    · cases more with
      | nil => cases (List.cons.inj hmore).1
      | cons d more =>
        obtain ⟨rfl, rfl⟩ := List.cons.inj hmore
        exact ⟨body, i, more, rfl, hb⟩
  · rintro ⟨body, i, after, heq, hb⟩
    obtain ⟨rfl, rfl⟩ := List.cons.inj heq
    exact ⟨body, i, after ++ '\x7b' :: rest, by simp, hb⟩

/-- The pieces in front of a brace do not hang on what follows it. -/
theorem Cut.append {before : List Char} {more : List TemplatePiece} (h : Cut count before pieces)
    (hr : Cut count ('\x7b' :: rest) more) :
    Cut count (before ++ '\x7b' :: rest) (pieces ++ more) := by
  induction h with
  | nil => exact hr
  | literal hc _ ih => exact .literal (mt opensPlace_append_iff.mp hc) ih
  | place hb _ ih =>
    rw [List.cons_append, List.append_assoc]
    exact .place hb ih

/-! ## Filling -/

variable {parameters : List String}

theorem fillPlaces_place {body : List Char} {i : Nat} (hb : IsPlace parameters.length body i) :
    fillPlaces parameters ('\x7b' :: (body ++ '\x7d' :: rest)) =
      (parameters.getD i "").toList ++ fillPlaces parameters rest := by
  have hne : ∀ c ∈ body, (c != '\x7d') = true := fun c hc =>
    bne_iff_ne.mpr fun he => hb.index.brace_not_mem.2 (he ▸ hc)
  rw [fillPlaces, if_pos rfl, List.takeWhile_append_of_pos hne, List.dropWhile_append_of_pos hne]
  simp [placeIndex?_eq_some_iff.mpr hb.index, List.getElem?_eq_getElem hb.lt]

theorem fillPlaces_literal {c : Char} (hc : ¬ OpensPlace parameters.length (c :: rest)) :
    fillPlaces parameters (c :: rest) = c :: fillPlaces parameters rest := by
  rw [fillPlaces]
  split
  · next hbrace =>
    subst hbrace
    split
    · next d after p hdrop hplace =>
      -- What was found is a place.
      obtain ⟨i, hindex, hparameter⟩ := Option.bind_eq_some_iff.mp hplace
      obtain ⟨hlt, -⟩ := List.getElem?_eq_some_iff.mp hparameter
      have hd : d = '\x7d' := by
        have hnot := List.head?_dropWhile_not (· != '\x7d') rest
        rw [hdrop] at hnot
        simpa using hnot
      subst hd
      refine absurd ⟨_, i, after, ?_, placeIndex?_eq_some_iff.mp hindex, hlt⟩ hc
      rw [← hdrop, List.takeWhile_append_dropWhile]
    · rfl
  · rfl

/-- The parameters stand in the places, and all other characters are copied. -/
theorem Cut.fillPlaces_eq (h : Cut parameters.length text pieces) :
    fillPlaces parameters text = pieces.flatMap (TemplatePiece.text parameters) := by
  induction h with
  | nil => rw [fillPlaces, List.flatMap_nil]
  | literal hc _ ih => rw [fillPlaces_literal hc, ih, List.flatMap_cons]; rfl
  | place hb _ ih => rw [fillPlaces_place hb, ih, List.flatMap_cons]; rfl

/-- What follows a brace does not change what is in front of it. -/
theorem fillPlaces_append (parameters : List String) (before rest : List Char) :
    fillPlaces parameters (before ++ '\x7b' :: rest) =
      fillPlaces parameters before ++ fillPlaces parameters ('\x7b' :: rest) := by
  obtain ⟨pieces, hp⟩ := exists_cut parameters.length before
  obtain ⟨more, hm⟩ := exists_cut parameters.length ('\x7b' :: rest)
  rw [(hp.append hm).fillPlaces_eq, hp.fillPlaces_eq, hm.fillPlaces_eq, List.flatMap_append]

/-- **Parameters are inserted as they are.** The template and the number of parameters alone
determine how the template is cut, and with any parameters of that number the pieces are filled: a
character stands for itself, and a place gives its parameter, whatever that contains. Each place is
filled, wherever it stands. A brace that opens no place is copied, and what follows it is filled as
if it stood alone. -/
theorem formatTemplate_cut (template : String) (count : Nat) :
    (∃ pieces, Cut count template.toList pieces ∧
      (∀ others, Cut count template.toList others → others = pieces) ∧
      ∀ parameters : List String, parameters.length = count →
        formatTemplate template parameters =
          String.ofList (pieces.flatMap (TemplatePiece.text parameters))) ∧
    ∀ parameters : List String, parameters.length = count →
      (∀ before body after i, template.toList = before ++ '\x7b' :: (body ++ '\x7d' :: after) →
        IsPlace count body i →
        formatTemplate template parameters =
          formatTemplate (String.ofList before) parameters ++ parameters.getD i "" ++
            formatTemplate (String.ofList after) parameters) ∧
      ∀ before after, template.toList = before ++ '\x7b' :: after →
        ¬ OpensPlace count ('\x7b' :: after) →
        formatTemplate template parameters =
          formatTemplate (String.ofList before) parameters ++ "\x7b" ++
            formatTemplate (String.ofList after) parameters := by
  constructor
  · obtain ⟨pieces, hp⟩ := exists_cut count template.toList
    refine ⟨pieces, hp, fun others ho => hp.unique ho, ?_⟩
    rintro parameters rfl
    rw [formatTemplate, hp.fillPlaces_eq]
  · rintro parameters rfl
    constructor
    · intro before body after i htext hb
      rw [formatTemplate, htext, fillPlaces_append, fillPlaces_place hb]
      simp [formatTemplate, String.append_assoc]
    · intro before after htext hnone
      rw [formatTemplate, htext, fillPlaces_append, fillPlaces_literal hnone]
      simp [formatTemplate, String.append_assoc]

/-- Parameters that look like places, in a template with a brace that is never closed and one that
opens no place. -/
theorem formatTemplate_cut_braces :
    ["\x7b1\x7d", "\x7d\x7b0\x7d"].length = 2 ∧ IsPlace 2 ['0'] 0 ∧
    formatTemplate "\x7b9 \x7b0\x7d: \x7b1\x7d\x7b" ["\x7b1\x7d", "\x7d\x7b0\x7d"] =
      formatTemplate "\x7b9 " ["\x7b1\x7d", "\x7d\x7b0\x7d"] ++ "\x7b1\x7d" ++
        formatTemplate ": \x7b1\x7d\x7b" ["\x7b1\x7d", "\x7d\x7b0\x7d"] ∧
    formatTemplate "\x7b9 \x7b0\x7d: \x7b1\x7d\x7b" ["\x7b1\x7d", "\x7d\x7b0\x7d"] =
      "\x7b9 \x7b1\x7d: \x7d\x7b0\x7d\x7b" := by
  have hplace : IsPlace 2 ['0'] 0 :=
    ⟨⟨⟨[], [], ['0'], [], rfl, by simp, by simp, .inl rfl, by simp [IsRow], rfl⟩, by decide⟩,
      by decide⟩
  have hfilled := ((formatTemplate_cut "\x7b9 \x7b0\x7d: \x7b1\x7d\x7b" 2).2
    ["\x7b1\x7d", "\x7d\x7b0\x7d"] rfl).1 "\x7b9 ".toList ['0'] ": \x7b1\x7d\x7b".toList 0 rfl
    hplace
  refine ⟨rfl, hplace, hfilled, hfilled.trans ?_⟩
  decide +kernel

end Formwork
