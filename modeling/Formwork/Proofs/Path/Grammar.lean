import Formwork.Proofs.Except
import Formwork.Proofs.Path.Spelling
import Formwork.Proofs.Text.Blank

/-!
# The grammar of paths

- **One spelling** (`Spelling.text_injective`): a text is written in one way only, as a name ends in
  front of a point or a bracket, a key without quotes at the next closing bracket, and a key in
  quotes at the next quote of its kind.
- **The grammar** (`Spelling.Plain`): points stand in front of names only. A point in front of a
  bracket is read as well, and without it the segments are the same (`Spelling.unpointed`).
- **Blank texts** (`Spelling.isBlank_raw_iff`): the only path that is written as a blank text is a
  blank name.
- **Lists of segments** (`exists_plain_iff`): which ones have a spelling.
-/

namespace Formwork

/-! ## Spellings are unique -/

/-- Two runs of characters, each up to the first character of another kind, are the same. -/
theorem span_unique {P : Char → Prop} {cs ds l m : List Char} (hcs : ∀ c ∈ cs, P c)
    (hds : ∀ c ∈ ds, P c) (hl : ∀ c ∈ l.head?, ¬ P c) (hm : ∀ c ∈ m.head?, ¬ P c)
    (h : cs ++ l = ds ++ m) : cs = ds ∧ l = m := by
  induction cs generalizing ds with
  | nil =>
    cases ds with
    | nil => exact ⟨rfl, h⟩
    | cons d ds =>
      have hd : d ∈ l.head? := by
        rw [List.nil_append] at h
        simp [h]
      exact absurd (hds d (List.mem_cons_self ..)) (hl d hd)
  | cons c cs ih =>
    cases ds with
    | nil =>
      have hc : c ∈ m.head? := by
        rw [List.nil_append] at h
        simp [← h]
      exact absurd (hcs c (List.mem_cons_self ..)) (hm c hc)
    | cons d ds =>
      obtain ⟨rfl, hrest⟩ := List.cons.inj h
      obtain ⟨rfl, rfl⟩ := ih (fun x hx => hcs x (List.mem_cons_of_mem _ hx))
        (fun x hx => hds x (List.mem_cons_of_mem _ hx)) hrest
      exact ⟨rfl, rfl⟩

/-- Up to the first occurrence of a character. -/
theorem cut_unique {stop : Char} {cs ds l m : List Char} (hcs : stop ∉ cs) (hds : stop ∉ ds)
    (h : cs ++ stop :: l = ds ++ stop :: m) : cs = ds ∧ l = m := by
  have hne : ∀ {x : List Char}, stop ∉ x → ∀ c ∈ x, c ≠ stop := fun hx c hc he => hx (he ▸ hc)
  obtain ⟨rfl, hlm⟩ := span_unique (hne hcs) (hne hds) (by simp) (by simp) h
  exact ⟨rfl, (List.cons.inj hlm).2⟩

/-- What follows a name is no character of a name. -/
def EndsName (l : List Char) : Prop := ∀ c ∈ l.head?, ¬ IsNameChar c

namespace Place

variable {p p' : Place} {l m : List Char}

/-- The places of a text that starts with a name. -/
theorem name_unique {cs : List Char} (hp : (name cs).WellFormed) (hp' : p'.WellFormed)
    (hl : EndsName l) (hm : EndsName m) (h : (name cs).text ++ l = p'.text ++ m) :
    name cs = p' ∧ l = m := by
  have hbracket : ∀ rest, cs ++ l ≠ '[' :: rest := by
    intro rest he
    obtain ⟨c, ds, rfl⟩ := List.exists_cons_of_ne_nil hp.1
    have hc : c = '[' := (List.cons.inj he).1
    exact (hp.2 c (List.mem_cons_self ..)).2.1 hc
  cases p' with
  | name ds =>
    obtain ⟨rfl, rfl⟩ := span_unique hp.2 hp'.2 hl hm h
    exact ⟨rfl, rfl⟩
  | key ds => exact absurd h (hbracket _)
  | quoted q ds => exact absurd h (hbracket _)

/-- The places of a text that starts with a key without quotes: its first character is no quote. -/
theorem key_unique {cs : List Char} (hp : (key cs).WellFormed) (hp' : p'.WellFormed)
    (hn : ¬ p'.IsName) (h : (key cs).text ++ l = p'.text ++ m) : key cs = p' ∧ l = m := by
  obtain ⟨hne, hquote, hcs⟩ := hp
  have h : '[' :: (cs ++ ']' :: l) = p'.text ++ m := by simpa [text] using h
  cases p' with
  | name ds => exact absurd trivial hn
  | key ds =>
    have hrest : cs ++ ']' :: l = ds ++ ']' :: m := by simpa [text] using h
    obtain ⟨rfl, rfl⟩ := cut_unique hcs hp'.2.2 hrest
    exact ⟨rfl, rfl⟩
  | quoted q ds =>
    cases cs with
    | nil => exact absurd rfl hne
    | cons c cs =>
      have hc : c = q := (List.cons.inj (List.cons.inj h).2).1
      exact absurd (hc ▸ hp'.1) (hquote c rfl)

theorem quoted_unique {q q' : Char} {cs ds : List Char} (hp : (quoted q cs).WellFormed)
    (hp' : (quoted q' ds).WellFormed) (h : (quoted q cs).text ++ l = (quoted q' ds).text ++ m) :
    quoted q cs = quoted q' ds ∧ l = m := by
  have h : q :: (cs ++ q :: ']' :: l) = q' :: (ds ++ q' :: ']' :: m) := by simpa [text] using h
  obtain ⟨rfl, hrest⟩ := List.cons.inj h
  obtain ⟨rfl, hl⟩ := cut_unique hp.2 hp'.2 hrest
  exact ⟨rfl, (List.cons.inj hl).2⟩

theorem text_append_unique (hp : p.WellFormed) (hp' : p'.WellFormed) (hl : EndsName l)
    (hm : EndsName m) (h : p.text ++ l = p'.text ++ m) : p = p' ∧ l = m := by
  cases p with
  | name cs => exact name_unique hp hp' hl hm h
  | key cs =>
    by_cases hn : p'.IsName
    · obtain ⟨ds, rfl⟩ : ∃ ds, p' = name ds := by cases p' <;> simp_all [IsName]
      exact (name_unique hp' hp hm hl h.symm).imp Eq.symm Eq.symm
    · exact key_unique hp hp' hn h
  | quoted q cs =>
    cases p' with
    | name ds => exact (name_unique hp' hp hm hl h.symm).imp Eq.symm Eq.symm
    | key ds => exact (key_unique hp' hp id h.symm).imp Eq.symm Eq.symm
    | quoted q' ds => exact quoted_unique hp hp' h

end Place

namespace PathStep

/-- A step starts with a point or with a bracket. -/
theorem head?_text {t : PathStep} (h : t.WellFormed) :
    t.text.head? = some (if t.pointed then '.' else '[') := by
  obtain ⟨pointed, p⟩ := t
  cases pointed with
  | true => rfl
  | false =>
    have hn : ¬ p.IsName := fun hname => Bool.noConfusion (h.2 hname)
    show p.text.head? = some '['
    rw [PathState.text_of_not_isName hn, List.head?_cons]

theorem head?_text_append {t : PathStep} (h : t.WellFormed) (l : List Char) :
    (t.text ++ l).head? = some (if t.pointed then '.' else '[') := by
  rw [List.head?_append, head?_text h, Option.some_or]

theorem endsName_written {w : List PathStep} (hw : ∀ t ∈ w, t.WellFormed) :
    EndsName (written w) := by
  intro c hc
  cases w with
  | nil => cases hc
  | cons t w =>
    rw [written_cons, head?_text_append (hw t (List.mem_cons_self ..)), Option.mem_some] at hc
    subst hc
    split <;> decide

theorem text_append_unique {t t' : PathStep} {l m : List Char} (ht : t.WellFormed)
    (ht' : t'.WellFormed) (hl : EndsName l) (hm : EndsName m)
    (h : t.text ++ l = t'.text ++ m) : t = t' ∧ l = m := by
  have hhead := congrArg List.head? h
  rw [head?_text_append ht, head?_text_append ht'] at hhead
  obtain ⟨pointed, p⟩ := t
  obtain ⟨pointed', p'⟩ := t'
  obtain rfl : pointed = pointed' := by cases pointed <;> cases pointed' <;> simp_all
  have hplaces : p.text ++ l = p'.text ++ m := by
    simp only [text, List.append_assoc] at h
    exact List.append_cancel_left h
  obtain ⟨rfl, rfl⟩ := Place.text_append_unique ht.1 ht'.1 hl hm hplaces
  exact ⟨rfl, rfl⟩

theorem written_ne_nil {t : PathStep} (ht : t.WellFormed) (w : List PathStep) :
    written (t :: w) ≠ [] := by
  intro he
  have hhead := head?_text_append ht (written w)
  rw [← written_cons, he] at hhead
  cases hhead

theorem written_injective {w w' : List PathStep} (hw : ∀ t ∈ w, t.WellFormed)
    (hw' : ∀ t ∈ w', t.WellFormed) (h : written w = written w') : w = w' := by
  induction w generalizing w' with
  | nil =>
    cases w' with
    | nil => rfl
    | cons t w' => exact absurd h.symm (written_ne_nil (hw' t (List.mem_cons_self ..)) w')
  | cons t w ih =>
    obtain ⟨ht, hmore⟩ := List.forall_mem_cons.mp hw
    cases w' with
    | nil => exact absurd h (written_ne_nil ht w)
    | cons t' w' =>
      obtain ⟨ht', hmore'⟩ := List.forall_mem_cons.mp hw'
      obtain ⟨rfl, hrest⟩ :=
        text_append_unique ht ht' (endsName_written hmore) (endsName_written hmore') h
      rw [ih hmore hmore' hrest]

end PathStep

namespace Spelling

/-- A text is the text of one spelling. -/
theorem text_injective {w w' : Spelling} (h : w.text = w'.text) : w = w' := by
  obtain ⟨head, tail, hhead, htail⟩ := w
  obtain ⟨head', tail', hhead', htail'⟩ := w'
  obtain ⟨rfl, hrest⟩ := Place.text_append_unique hhead hhead'
    (PathStep.endsName_written htail) (PathStep.endsName_written htail') h
  obtain rfl := PathStep.written_injective htail htail' hrest
  rfl

/-! ## Spellings of the grammar -/

/-- The path as a text. -/
def raw (w : Spelling) : String := String.ofList w.text

/-- A point stands in front of every name but the first one, and nowhere else. -/
def Plain (w : Spelling) : Prop := ∀ t ∈ w.tail, t.pointed = true → t.place.IsName

/-- The path of some places, with points in front of names only. -/
def ofPlaces (head : Place) (tail : List Place) (hhead : head.WellFormed)
    (htail : ∀ p ∈ tail, p.WellFormed) : Spelling where
  head := head
  tail := tail.map fun p => ⟨decide p.IsName, p⟩
  head_ok := hhead
  tail_ok := by
    intro t ht
    obtain ⟨p, hp, rfl⟩ := List.mem_map.mp ht
    exact ⟨htail p hp, fun hname => decide_eq_true hname⟩

variable {head : Place} {tail : List Place} {hhead : head.WellFormed}
  {htail : ∀ p ∈ tail, p.WellFormed}

theorem plain_ofPlaces : (ofPlaces head tail hhead htail).Plain := by
  intro t ht
  obtain ⟨p, -, rfl⟩ := List.mem_map.mp ht
  exact of_decide_eq_true

@[simp] theorem segments_ofPlaces :
    (ofPlaces head tail hhead htail).segments = (head :: tail).map Place.segment := by
  simp [ofPlaces, segments, PathStep.segments]

/-- The path without the points in front of brackets. -/
def unpointed (w : Spelling) : Spelling :=
  ofPlaces w.head (w.tail.map (·.place)) w.head_ok (by
    intro p hp
    obtain ⟨t, ht, rfl⟩ := List.mem_map.mp hp
    exact (w.tail_ok t ht).1)

theorem segments_unpointed (w : Spelling) : w.unpointed.segments = w.segments := by
  rw [unpointed, segments_ofPlaces, List.map_cons, List.map_map]
  rfl

/-! ## Blank texts -/

/-- The path is one name, and the name is blank. -/
theorem isBlank_raw_iff {w : Spelling} :
    Text.isBlank w.raw = true ↔
      ∃ name, w.segments = [.property name] ∧ Text.isBlank name = true := by
  obtain ⟨head, tail, hhead, htail⟩ := w
  simp only [Text.isBlank, raw, text, String.toList_ofList, List.all_append, Bool.and_eq_true,
    segments]
  cases tail with
  | nil =>
    cases head with
    | name cs => simp [Place.text, Place.segment]
    | key cs => simp [Place.text, Place.segment, Text.isSpace]
    | quoted q cs => simp [Place.text, Place.segment, Text.isSpace]
  | cons t tail =>
    refine iff_of_false ?_ (by simp)
    rintro ⟨-, hall⟩
    have hhead := PathStep.head?_text_append (htail t (List.mem_cons_self ..))
      (PathStep.written tail)
    have hspace := List.all_eq_true.mp hall _ (List.mem_of_mem_head? hhead)
    revert hspace
    split <;> decide

theorem isBlank_raw_unpointed (w : Spelling) :
    Text.isBlank w.unpointed.raw = Text.isBlank w.raw := by
  rw [Bool.eq_iff_iff, isBlank_raw_iff, isBlank_raw_iff, segments_unpointed]

theorem parse_raw {w : Spelling} (h : Text.isBlank w.raw = false) :
    PropertyPath.parse w.raw = .ok ⟨w.raw, w.segments⟩ :=
  PropertyPath.parse_eq_ok_iff.mpr ⟨h, w, String.toList_ofList, rfl⟩

end Spelling

/-! ## Lists of segments -/

/-- A name of name characters, or a key without some quote; a key with both quotes needs to stand
without quotes. -/
def Segment.Spellable : Segment → Prop
  | .property name => name ≠ "" ∧ ∀ c ∈ name.toList, IsNameChar c
  | .index key => (∃ q, IsQuote q ∧ q ∉ key.toList) ∨
      (key ≠ "" ∧ Text.trim key = key ∧ ']' ∉ key.toList)

theorem exists_place_iff {s : Segment} :
    (∃ p : Place, p.WellFormed ∧ p.segment = s) ↔ s.Spellable := by
  constructor
  · rintro ⟨p, hp, rfl⟩
    cases p with
    | name cs => exact ⟨by simpa using hp.1, by simpa using hp.2⟩
    | key cs =>
      refine .inr ⟨by simpa using hp.1, ?_, ?_⟩
      · simp [Text.trim, Text.trimChars_trimChars]
      · rw [String.toList_ofList]
        exact fun hm => hp.2.2 ((Text.trimChars_sublist cs).subset hm)
    | quoted q cs => exact .inl ⟨q, hp.1, by simpa using hp.2⟩
  · intro h
    cases s with
    | property name =>
      exact ⟨.name name.toList, ⟨by simpa using h.1, h.2⟩, by simp [Place.segment]⟩
    | index key =>
      rcases h with ⟨q, hq, hm⟩ | ⟨hne, htrim, hm⟩
      · exact ⟨.quoted q key.toList, ⟨hq, hm⟩, by simp [Place.segment]⟩
      · -- a space in front keeps a key that starts with a quote from being read as a quoted one
        have hkey : Text.trimChars (' ' :: key.toList) = key.toList := by
          have : Text.trimLeft (' ' :: key.toList) = Text.trimLeft key.toList := rfl
          rw [Text.trimChars, this, ← Text.trimChars]
          simpa [Text.trim] using congrArg String.toList htrim
        refine ⟨.key (' ' :: key.toList), ⟨?_, by simp [IsQuote], by simpa using hm⟩, ?_⟩
        · rw [hkey]
          simpa using hne
        · rw [Place.segment, hkey, String.ofList_toList]

/-- The lists of segments that have a spelling. -/
theorem exists_plain_iff {segments : List Segment} :
    (∃ w : Spelling, w.Plain ∧ w.segments = segments) ↔
      segments ≠ [] ∧ ∀ s ∈ segments, s.Spellable := by
  constructor
  · rintro ⟨w, -, rfl⟩
    refine ⟨List.cons_ne_nil _ _, ?_⟩
    rintro s (_ | ⟨_, hs⟩)
    · exact exists_place_iff.mp ⟨w.head, w.head_ok, rfl⟩
    · obtain ⟨t, ht, rfl⟩ := List.mem_map.mp hs
      exact exists_place_iff.mp ⟨t.place, (w.tail_ok t ht).1, rfl⟩
  · rintro ⟨hne, hall⟩
    simp only [← exists_place_iff] at hall
    obtain ⟨places, hplaces⟩ := exists_forall₂_iff.mpr hall
    have hok : ∀ p ∈ places, p.WellFormed := by
      intro p hp
      obtain ⟨s, -, hs⟩ := exists_of_mem_right hplaces.flip hp
      exact hs.1
    have hsegments : places.map Place.segment = segments :=
      List.forall₂_eq_eq_eq ▸ List.forall₂_map_left_iff.mpr (hplaces.imp fun _ _ h => h.2)
    cases places with
    | nil => exact absurd hsegments.symm hne
    | cons head tail =>
      obtain ⟨hhead, htail⟩ := List.forall_mem_cons.mp hok
      exact ⟨.ofPlaces head tail hhead htail, Spelling.plain_ofPlaces,
        Spelling.segments_ofPlaces.trans hsegments⟩

/-- **The grammar of paths.** A text that is not blank is read iff it is a name or a key, followed
by keys and by names with a point in front, where a key may have a point in front as well; what is
read are the names and the keys in order. A text is written in one way only, so it is of the grammar
iff no key has a point in front; and without these points it is of the grammar and has the same
segments. The lists of segments that are read from a text of the grammar are those of names of name
characters and of keys without some quote, or that can stand without quotes, but for the empty list
and a single blank name. -/
theorem PropertyPath.parse_grammar (raw : String) (segments : List Segment) :
    (∀ p, parse raw = .ok p ↔ Text.isBlank raw = false ∧ ∃ w : Spelling,
      w.raw = raw ∧ p = ⟨raw, w.segments⟩) ∧
    (∀ w : Spelling, w.raw = raw → Text.isBlank raw = false →
      (∀ w' : Spelling, w'.raw = raw → w' = w) ∧
      ((∃ w' : Spelling, w'.Plain ∧ w'.raw = raw) ↔ w.Plain) ∧ w.unpointed.Plain ∧
      parse w.unpointed.raw = .ok ⟨w.unpointed.raw, w.segments⟩) ∧
    ((∃ w : Spelling, w.Plain ∧ ∃ p, parse w.raw = .ok p ∧ p.segments = segments) ↔
      segments ≠ [] ∧ (∀ s ∈ segments, s.Spellable) ∧
        ∀ name, segments = [.property name] → Text.isBlank name = false) := by
  refine ⟨fun p => ⟨fun h => ?_, ?_⟩, ?_, ?_⟩
  · obtain ⟨hb, w, hw, rfl⟩ := parse_eq_ok_iff.mp h
    exact ⟨hb, w, by rw [Spelling.raw, ← hw, String.ofList_toList], rfl⟩
  · rintro ⟨hb, w, rfl, rfl⟩
    exact Spelling.parse_raw hb
  · rintro w rfl hb
    have hunique : ∀ w' : Spelling, w'.raw = w.raw → w' = w := fun w' h' =>
      Spelling.text_injective (String.ofList_inj.mp h')
    have hunpointed : Text.isBlank w.unpointed.raw = false := by
      rw [Spelling.isBlank_raw_unpointed, hb]
    refine ⟨hunique, ⟨?_, fun hplain => ⟨w, hplain, rfl⟩⟩, Spelling.plain_ofPlaces, ?_⟩
    · rintro ⟨w', hplain, h'⟩
      exact hunique w' h' ▸ hplain
    · rw [Spelling.parse_raw hunpointed, Spelling.segments_unpointed]
  · rw [← and_assoc, ← exists_plain_iff]
    constructor
    · rintro ⟨w, hplain, p, h, rfl⟩
      obtain ⟨hb, -⟩ := parse_eq_ok_iff.mp h
      obtain rfl := Except.ok.inj (h.symm.trans (Spelling.parse_raw hb))
      refine ⟨⟨w, hplain, rfl⟩, fun name hname => Bool.not_eq_true _ ▸ fun hblank => ?_⟩
      rw [Spelling.isBlank_raw_iff.mpr ⟨name, hname, hblank⟩] at hb
      cases hb
    · rintro ⟨⟨w, hplain, rfl⟩, hname⟩
      have hb : Text.isBlank w.raw = false := by
        rw [← Bool.not_eq_true, Spelling.isBlank_raw_iff]
        rintro ⟨name, hs, hblank⟩
        rw [hname name hs] at hblank
        cases hblank
      exact ⟨w, hplain, _, Spelling.parse_raw hb, rfl⟩

/-- A point in front of a key. -/
def Spelling.pointedKey : Spelling where
  head := .name ['a']
  tail := [⟨true, .key ['0']⟩]
  head_ok := by decide
  tail_ok := by decide

theorem PropertyPath.parse_grammar_pointedKey :
    parse "a.[0]" = .ok ⟨"a.[0]", [.property "a", .index "0"]⟩ ∧
      (¬ ∃ w : Spelling, w.Plain ∧ w.raw = "a.[0]") ∧
      parse Spelling.pointedKey.unpointed.raw =
        .ok ⟨Spelling.pointedKey.unpointed.raw, [.property "a", .index "0"]⟩ := by
  have hraw : Spelling.pointedKey.raw = "a.[0]" := by decide +kernel
  have hb : Text.isBlank "a.[0]" = false := by decide +kernel
  obtain ⟨hread, hway, -⟩ := parse_grammar "a.[0]" []
  obtain ⟨-, hplain, -, hunpointed⟩ := hway Spelling.pointedKey hraw hb
  refine ⟨(hread _).mpr ⟨hb, Spelling.pointedKey, hraw, rfl⟩, fun hw => ?_, hunpointed⟩
  exact hplain.mp hw ⟨true, .key ['0']⟩ (by simp [Spelling.pointedKey]) rfl

end Formwork
