import Formwork.Locale.Basic
import Formwork.Proofs.Text.Blank
import Formwork.Proofs.Text.Case

/-!
# Tags of locales

A locale that was read from a tag is written as a tag again and read back. White space around a tag
is passed over, but white space in front of a separator belongs to the part before it. So a locale
is read back as it is iff its tag does not end in white space, and else without that white space.

* `ofTag_eq_ofFirstParts`: the language stands in front of the first separator, and the country between
  that one and the next.
* `isNormal_ofTag`: what every locale fulfils that was read from a tag.
* `IsNormal.ofTag_eq_trimEnd`: the tag of such a locale, read back.
* `ofTag_tag`: the round trip of a tag.
-/

namespace Formwork.Locale

open Text Text.Unicode

variable {l : Locale}

/-! ## Parts of a tag -/

/-- What stands in front of the first separator. -/
def firstPart (tag : List Char) : List Char := tag.takeWhile (!isSeparator ·)

/-- What stands between the first separator and the next one. -/
def secondPart (tag : List Char) : List Char :=
  firstPart (tag.dropWhile (!isSeparator ·)).tail

theorem isSeparator_of_mem_firstPart {tag : List Char} {c : Char} (h : c ∈ firstPart tag) :
    isSeparator c = false := by
  simpa using List.mem_takeWhile_imp h

theorem firstPart_eq_self {tag : List Char} (h : ∀ c ∈ tag, isSeparator c = false) :
    firstPart tag = tag := by
  rw [firstPart, List.takeWhile_eq_self_iff]
  simpa using h

theorem firstPart_append {front back : List Char} {m : Char}
    (h : ∀ c ∈ front, isSeparator c = false) (hm : isSeparator m = true) :
    firstPart (front ++ m :: back) = front := by
  rw [firstPart, List.takeWhile_append_of_pos (by simpa using h),
    List.takeWhile_cons_of_neg (by simp [hm]), List.append_nil]

theorem secondPart_eq_nil {tag : List Char} (h : ∀ c ∈ tag, isSeparator c = false) :
    secondPart tag = [] := by
  rw [secondPart, List.dropWhile_eq_nil_iff.mpr (by simpa using h)]
  rfl

theorem secondPart_append {front back : List Char} {m : Char}
    (h : ∀ c ∈ front, isSeparator c = false) (hm : isSeparator m = true) :
    secondPart (front ++ m :: back) = firstPart back := by
  rw [secondPart, List.dropWhile_append_of_pos (by simpa using h),
    List.dropWhile_cons_of_neg (by simp [hm]), List.tail_cons]

/-- A tag has one part, or a part, a separator and more behind it. -/
theorem tag_cases (tag : List Char) : (∀ c ∈ tag, isSeparator c = false) ∨
    ∃ front m back, tag = front ++ m :: back ∧ (∀ c ∈ front, isSeparator c = false) ∧
      isSeparator m = true := by
  by_cases h : ∀ c ∈ tag, isSeparator c = false
  · exact .inl h
  · have hne : tag.dropWhile (!isSeparator ·) ≠ [] := by
      rw [Ne, List.dropWhile_eq_nil_iff]
      simpa using h
    obtain ⟨m, back, hback⟩ := List.exists_cons_of_ne_nil hne
    refine .inr ⟨firstPart tag, m, back, ?_, fun c => isSeparator_of_mem_firstPart, ?_⟩
    · rw [firstPart, ← hback, List.takeWhile_append_dropWhile]
    · have hhead := List.head?_dropWhile_not (!isSeparator ·) tag
      simpa [hback] using hhead

/-- The locale of the first two parts, in English where there is no first one. -/
def ofFirstParts (tag : List Char) : Locale :=
  ofParts (if (firstPart tag).isEmpty then "en" else String.ofList (firstPart tag))
    (if (secondPart tag).isEmpty then none else some (String.ofList (secondPart tag)))

theorem ofTag_eq_ofFirstParts (s : String) : ofTag s = ofFirstParts (trimChars s.toList) := by
  unfold ofTag ofFirstParts
  generalize trimChars s.toList = tag
  rcases tag_cases tag with h | ⟨front, m, back, rfl, h, hm⟩
  · rw [List.splitOnP_eq_singleton h, firstPart_eq_self h, secondPart_eq_nil h]
    rfl
  · rw [List.splitOnP_append_cons_of_forall_mem h m hm, firstPart_append h hm,
      secondPart_append h hm]
    rcases tag_cases back with hb | ⟨second, m', more, rfl, hb, hm'⟩
    · rw [List.splitOnP_eq_singleton hb, firstPart_eq_self hb]
      cases back <;> rfl
    · rw [List.splitOnP_append_cons_of_forall_mem hb m' hm', firstPart_append hb hm']
      cases second <;> rfl

/-! ## Normal locales -/

/-- A locale with the case mappings behind it, a language that begins with no white space, and no
separator in its parts. -/
structure IsNormal (l : Locale) : Prop where
  language_begins : ∃ c rest, l.language.toList = c :: rest ∧ isSpace c = false
  language_chars : ∀ c ∈ l.language.toList, isSeparator c = false ∧ IsLowered c
  country_ne_empty : ∀ country ∈ l.country, country ≠ ""
  country_chars : ∀ country ∈ l.country, ∀ c ∈ country.toList,
    isSeparator c = false ∧ upper c = [c]

theorem isSeparator_of_isFormOf {c d : Char} (h : IsFormOf c d) (hc : isSeparator c = false) :
    isSeparator d = false := by
  rcases h with rfl | ⟨-, hascii⟩
  · exact hc
  · rw [isSeparator, Bool.or_eq_false_iff, beq_eq_false_iff_ne, beq_eq_false_iff_ne]
    constructor
    · rintro rfl
      exact absurd (hascii (by decide)) (by decide)
    · rintro rfl
      exact absurd (hascii (by decide)) (by decide)

theorem isNormal_ofParts {language : String} {country : Option String}
    (hbegins : ∃ c rest, language.toList = c :: rest ∧ isSpace c = false)
    (hlanguage : ∀ c ∈ language.toList, isSeparator c = false)
    (hne : ∀ name ∈ country, name ≠ "")
    (hcountry : ∀ name ∈ country, ∀ c ∈ name.toList, isSeparator c = false) :
    (ofParts language country).IsNormal where
  language_begins := by
    -- the mappings bring in no white space, so that the first character stays none
    obtain ⟨c, rest, hc, hspace⟩ := hbegins
    obtain ⟨d, more, hd, hform⟩ := exists_lowerFrom_cons [] c rest
    refine ⟨d, more, by rw [ofParts, toLower, String.toList_ofList, hc, hd], ?_⟩
    exact Bool.eq_false_iff.mpr fun hds => by simp [hform.isSpace hds] at hspace
  language_chars := by
    intro c hc
    obtain ⟨hlowered, c', hc', hform⟩ := mem_toLower hc
    exact ⟨isSeparator_of_isFormOf hform (hlanguage c' hc'), hlowered⟩
  country_ne_empty := by
    intro name hname
    obtain ⟨name', hname', rfl⟩ := Option.map_eq_some_iff.mp hname
    exact toUpper_ne_empty (hne name' hname')
  country_chars := by
    intro name hname c hc
    obtain ⟨name', hname', rfl⟩ := Option.map_eq_some_iff.mp hname
    obtain ⟨hupper, c', hc', hform⟩ := mem_toUpper hc
    exact ⟨isSeparator_of_isFormOf hform (hcountry name' hname' c' hc'), hupper⟩

theorem isNormal_ofTag (s : String) : (ofTag s).IsNormal := by
  rw [ofTag_eq_ofFirstParts]
  generalize htag : trimChars s.toList = tag
  apply isNormal_ofParts
  · split
    · exact ⟨'e', ['n'], rfl, by decide⟩
    · next hempty =>
      obtain ⟨c, rest, hfirst⟩ := List.exists_cons_of_ne_nil (mt List.isEmpty_iff.mpr hempty)
      obtain ⟨more, hmore⟩ := List.takeWhile_prefix (l := tag) (!isSeparator ·)
      have hcons : trimChars s.toList = c :: (rest ++ more) := by
        rw [htag, ← hmore, ← List.cons_append, ← hfirst, firstPart]
      exact ⟨c, rest, by rw [String.toList_ofList, hfirst], isSpace_of_trimChars_eq_cons hcons⟩
  · split
    · exact List.forall_mem_cons.mpr ⟨rfl, List.forall_mem_singleton.mpr rfl⟩
    · rw [String.toList_ofList]
      exact fun c => isSeparator_of_mem_firstPart
  · intro name hname
    split at hname
    · cases hname
    · next hempty =>
      obtain rfl := Option.some.inj hname
      rwa [Ne, String.ofList_eq_empty_iff, ← List.isEmpty_iff]
  · intro name hname
    split at hname
    · cases hname
    · obtain rfl := Option.some.inj hname
      rw [String.toList_ofList]
      exact fun c => isSeparator_of_mem_firstPart

/-! ## Round trip -/

/-- A locale without the white space at the end of its last part; a country that is nothing but
white space is none. -/
def trimEnd (l : Locale) : Locale :=
  match l.country with
  | none => ⟨String.ofList (trimRight l.language.toList), none⟩
  | some country =>
    let name := trimRight country.toList
    ⟨l.language, if name.isEmpty then none else some (String.ofList name)⟩

theorem ofParts_eq_self {language : String} {country : Option String}
    (hlanguage : ∀ c ∈ language.toList, IsLowered c)
    (hcountry : ∀ name ∈ country, ∀ c ∈ name.toList, upper c = [c]) :
    ofParts language country = ⟨language, country⟩ := by
  rw [ofParts, toLower_eq_self hlanguage]
  cases country with
  | none => rfl
  | some name => rw [Option.map_some, toUpper_eq_self (hcountry name rfl)]

namespace IsNormal

variable {language country : String}

theorem trimChars_append {l : Locale} (h : l.IsNormal) (back : List Char) :
    trimChars (l.language.toList ++ back) = trimRight (l.language.toList ++ back) := by
  obtain ⟨c, rest, hc, hspace⟩ := h.language_begins
  exact trimChars_eq_trimRight (by simpa [hc] using hspace)

theorem ofTag_language (h : IsNormal ⟨language, none⟩) :
    ofTag language = ⟨String.ofList (trimRight language.toList), none⟩ := by
  have hchars : ∀ c ∈ trimRight language.toList, isSeparator c = false ∧ IsLowered c :=
    fun c hc => h.language_chars c ((trimRight_isPrefix _).subset hc)
  have hne : trimRight language.toList ≠ [] := by
    obtain ⟨c, rest, hc, hspace⟩ := h.language_begins
    rw [Ne, trimRight_eq_nil_iff]
    exact fun hall => by simp [hall c (hc ▸ List.mem_cons_self ..)] at hspace
  have htag : trimChars language.toList = trimRight language.toList := by
    simpa using h.trimChars_append []
  rw [ofTag_eq_ofFirstParts, htag, ofFirstParts, firstPart_eq_self fun c hc => (hchars c hc).1,
    secondPart_eq_nil fun c hc => (hchars c hc).1, if_neg (mt List.isEmpty_iff.mp hne),
    if_pos List.isEmpty_nil]
  exact ofParts_eq_self (by simpa using fun c hc => (hchars c hc).2) (by simp)

theorem ofTag_country (h : IsNormal ⟨language, some country⟩) :
    ofTag (language ++ "_" ++ country) = ⟨language,
      if (trimRight country.toList).isEmpty then none
      else some (String.ofList (trimRight country.toList))⟩ := by
  have hlanguage : ∀ c ∈ language.toList, isSeparator c = false ∧ IsLowered c := h.language_chars
  have hcountry : ∀ c ∈ trimRight country.toList, isSeparator c = false ∧ upper c = [c] :=
    fun c hc => h.country_chars country rfl c ((trimRight_isPrefix _).subset hc)
  have hne : language.toList ≠ [] := by
    obtain ⟨c, rest, hc, -⟩ := h.language_begins
    exact hc ▸ List.cons_ne_nil c rest
  have htag : trimChars (language ++ "_" ++ country).toList =
      language.toList ++ '_' :: trimRight country.toList := by
    rw [← trimRight_append_cons _ _ (by decide), String.toList_append, String.toList_append,
      List.append_assoc]
    exact h.trimChars_append _
  rw [ofTag_eq_ofFirstParts, htag, ofFirstParts, firstPart_append (fun c hc => (hlanguage c hc).1) rfl,
    secondPart_append (fun c hc => (hlanguage c hc).1) rfl,
    firstPart_eq_self fun c hc => (hcountry c hc).1, if_neg (mt List.isEmpty_iff.mp hne),
    String.ofList_toList]
  refine ofParts_eq_self (fun c hc => (hlanguage c hc).2) fun name hname => ?_
  split at hname
  · cases hname
  · obtain rfl := Option.some.inj hname
    simpa using fun c hc => (hcountry c hc).2

theorem ofTag_eq_trimEnd (h : l.IsNormal) : ofTag l.tag = l.trimEnd := by
  obtain ⟨language, _ | country⟩ := l
  · exact h.ofTag_language
  · exact h.ofTag_country

theorem trimEnd_eq_self_iff (h : l.IsNormal) :
    l.trimEnd = l ↔ ∀ c ∈ l.tag.toList.getLast?, isSpace c = false := by
  rw [← trimRight_eq_self_iff]
  obtain ⟨language, _ | country⟩ := l
  · have htag : tag ⟨language, none⟩ = language := rfl
    rw [trimEnd, htag, Locale.mk.injEq, ← String.toList_inj, String.toList_ofList]
    simp
  · have htag : (tag ⟨language, some country⟩).toList =
        language.toList ++ '_' :: country.toList := by simp [tag]
    have hne : country.toList ≠ [] :=
      mt String.toList_eq_nil_iff.mp (h.country_ne_empty country rfl)
    rw [htag, trimRight_append_cons _ _ (by decide), List.append_cancel_left_eq, List.cons.injEq,
      trimEnd, Locale.mk.injEq, eq_self, true_and, eq_self, true_and]
    split
    · next hempty => simp [List.isEmpty_iff.mp hempty, hne.symm]
    · rw [Option.some.injEq, ← String.toList_inj, String.toList_ofList]

end IsNormal

/-- **Round trip of a tag.** A locale has the first two parts of its tag. Its own tag is read back as
the locale without the white space at the end of its last part, so it is the same locale iff its tag
does not end in white space. -/
theorem ofTag_tag (s : String) :
    ofTag s = ofFirstParts (trimChars s.toList) ∧
    ofTag (ofTag s).tag = (ofTag s).trimEnd ∧
    (ofTag (ofTag s).tag = ofTag s ↔ ∀ c ∈ (ofTag s).tag.toList.getLast?, isSpace c = false) := by
  have hnormal := isNormal_ofTag s
  rw [hnormal.ofTag_eq_trimEnd]
  exact ⟨ofTag_eq_ofFirstParts s, rfl, hnormal.trimEnd_eq_self_iff⟩

/-- White space in front of a separator with nothing behind it ends the tag of the locale. -/
theorem ofTag_tag_blank : ofTag (ofTag "de -").tag ≠ ofTag "de -" := by decide +kernel

end Formwork.Locale
