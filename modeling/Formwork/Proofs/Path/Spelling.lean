import Formwork.Property.Path

/-!
# How a path is written

- **Places** (`Place`, `PathStep`): a name, or a key in brackets with or without quotes, with a
  point in front of it or not. A step with a name needs the point, a key may have one.
- **Paths** (`Spelling`): a place without a point, and steps. The text and the segments follow from
  it (`Spelling.text`, `Spelling.segments`).
- **Reading** (`parse_eq_ok_iff`): the texts that are read are those of spellings unless they are
  blank, and what is read are the segments of the spelling.
-/

namespace Formwork

/-! ## Places and steps -/

/-- A name or a key as it is written. -/
inductive Place where
  | name (chars : List Char)
  /-- A key without quotes, with the white space around it. -/
  | key (chars : List Char)
  | quoted (quote : Char) (chars : List Char)

/-- A character that starts and ends the key of a bracket. -/
def IsQuote (c : Char) : Prop := c = '\'' ∨ c = '"'

instance : DecidablePred IsQuote := fun c => inferInstanceAs (Decidable (c = '\'' ∨ c = '"'))

/-- A character that may stand in a name. -/
def IsNameChar (c : Char) : Prop := c ≠ '.' ∧ c ≠ '[' ∧ c ≠ ']'

instance : DecidablePred IsNameChar :=
  fun c => inferInstanceAs (Decidable (c ≠ '.' ∧ c ≠ '[' ∧ c ≠ ']'))

namespace Place

/-- The characters of a place. -/
def text : Place → List Char
  | name cs => cs
  | key cs => '[' :: cs ++ [']']
  | quoted q cs => '[' :: q :: cs ++ [q, ']']

/-- The segment that a place stands for. -/
def segment : Place → Segment
  | name cs => .property (String.ofList cs)
  | key cs => .index (String.ofList (Text.trimChars cs))
  | quoted _ cs => .index (String.ofList cs)

/-- What may stand in a name, in a key, and between quotes. -/
def WellFormed : Place → Prop
  | name cs => cs ≠ [] ∧ ∀ c ∈ cs, IsNameChar c
  | key cs => Text.trimChars cs ≠ [] ∧ (∀ c ∈ cs.head?, ¬ IsQuote c) ∧ ']' ∉ cs
  | quoted q cs => IsQuote q ∧ q ∉ cs

instance : DecidablePred WellFormed
  | name cs => @instDecidableAnd _ _ _ (List.decidableBAll IsNameChar cs)
  | key cs =>
    @instDecidableAnd _ _ _ (@instDecidableAnd _ _ (Option.decidableForallMem cs.head?) _)
  | quoted q cs => inferInstanceAs (Decidable (IsQuote q ∧ q ∉ cs))

/-- The place is a name. -/
def IsName : Place → Prop
  | name _ => True
  | key _ | quoted .. => False

instance : DecidablePred IsName
  | name _ => .isTrue trivial
  | key _ | quoted .. => .isFalse id

end Place

/-- A place, and whether a point stands in front of it. -/
structure PathStep where
  pointed : Bool
  place : Place

namespace PathStep

/-- The characters of a step. -/
def text (t : PathStep) : List Char := (if t.pointed then ['.'] else []) ++ t.place.text

/-- A name needs a point, as it would go on with the name before it. -/
def WellFormed (t : PathStep) : Prop :=
  t.place.WellFormed ∧ (t.place.IsName → t.pointed = true)

instance : DecidablePred WellFormed := fun t =>
  inferInstanceAs (Decidable (t.place.WellFormed ∧ (t.place.IsName → t.pointed = true)))

/-- The characters of steps. -/
def written (w : List PathStep) : List Char := w.flatMap text

/-- The segments that steps stand for. -/
def segments (w : List PathStep) : List Segment := w.map (·.place.segment)

@[simp] theorem written_nil : written [] = [] := rfl

@[simp] theorem written_cons (t : PathStep) (w : List PathStep) :
    written (t :: w) = t.text ++ written w := rfl

@[simp] theorem segments_nil : segments [] = [] := rfl

@[simp] theorem segments_cons (t : PathStep) (w : List PathStep) :
    segments (t :: w) = t.place.segment :: segments w := rfl

end PathStep

/-- A path as it is written. -/
structure Spelling where
  head : Place
  tail : List PathStep
  head_ok : head.WellFormed
  tail_ok : ∀ t ∈ tail, t.WellFormed

namespace Spelling

/-- The characters of a path. -/
def text (w : Spelling) : List Char := w.head.text ++ PathStep.written w.tail

/-- The segments of a path. -/
def segments (w : Spelling) : List Segment := w.head.segment :: PathStep.segments w.tail

end Spelling

/-! ## What is read is written -/

namespace PathState

open PathStep

/-- What the rest of a text is for a reader that stands in a state and finds segments there. -/
def Rest : PathState → List Char → List Segment → Prop
  | name [], l, found => ∃ (p : Place) (w : List PathStep), p.WellFormed ∧
      (∀ t ∈ w, t.WellFormed) ∧ l = p.text ++ written w ∧ found = p.segment :: segments w
  | name (c :: read), l, found => ∃ (cs : List Char) (w : List PathStep),
      (∀ d ∈ cs, IsNameChar d) ∧ (∀ t ∈ w, t.WellFormed) ∧ l = cs ++ written w ∧
      found = (Place.name ((c :: read).reverse ++ cs)).segment :: segments w
  | afterBracket, l, found => ∃ w : List PathStep, (∀ t ∈ w, t.WellFormed) ∧ l = written w ∧
      found = segments w
  | opened _, l, found => ∃ (p : Place) (w : List PathStep), p.WellFormed ∧ ¬ p.IsName ∧
      (∀ t ∈ w, t.WellFormed) ∧ '[' :: l = p.text ++ written w ∧ found = p.segment :: segments w
  | key _ read, l, found => ∃ (cs : List Char) (w : List PathStep),
      Text.trimChars (read.reverse ++ cs) ≠ [] ∧ ']' ∉ cs ∧ (∀ t ∈ w, t.WellFormed) ∧
      l = cs ++ ']' :: written w ∧
      found = (Place.key (read.reverse ++ cs)).segment :: segments w
  | quoted _ q read, l, found => ∃ (cs : List Char) (w : List PathStep), q ∉ cs ∧
      (∀ t ∈ w, t.WellFormed) ∧ l = cs ++ q :: ']' :: written w ∧
      found = (Place.quoted q (read.reverse ++ cs)).segment :: segments w
  | unquoted _ read, l, found => ∃ w : List PathStep, (∀ t ∈ w, t.WellFormed) ∧
      l = ']' :: written w ∧ found = .index (String.ofList read.reverse) :: segments w

/-- A place after a point, as a step. -/
theorem rest_pointed {l : List Char} {found : List Segment} (h : (name []).Rest l found) :
    ∃ w : List PathStep, (∀ t ∈ w, t.WellFormed) ∧ '.' :: l = written w ∧ found = segments w := by
  obtain ⟨p, w, hp, hw, rfl, rfl⟩ := h
  refine ⟨⟨true, p⟩ :: w, ?_, by simp [PathStep.text], by simp⟩
  rintro t (_ | ⟨_, ht⟩)
  · exact ⟨hp, fun _ => rfl⟩
  · exact hw t ht

/-- A key right behind what stands before it, as a step. -/
theorem rest_bracket {b : Nat} {l : List Char} {found : List Segment}
    (h : (opened b).Rest l found) :
    ∃ w : List PathStep, (∀ t ∈ w, t.WellFormed) ∧ '[' :: l = written w ∧ found = segments w := by
  obtain ⟨p, w, hp, hn, hw, hl, rfl⟩ := h
  refine ⟨⟨false, p⟩ :: w, ?_, by simp [PathStep.text, hl], by simp⟩
  rintro t (_ | ⟨_, ht⟩)
  · exact ⟨hp, fun hname => absurd hname hn⟩
  · exact hw t ht

theorem closeKey_eq_ok {read : List Char} {position : Nat} {next : PathState}
    {done : List Segment} (h : closeKey read position = .ok (next, done)) :
    Text.trimChars read.reverse ≠ [] ∧ next = .afterBracket ∧
      done = [(Place.key read.reverse).segment] := by
  unfold closeKey at h
  dsimp only at h
  split at h
  · cases h
  · next hne =>
    cases h
    exact ⟨by simpa using hne, rfl, rfl⟩

/-- A character of a name goes in front of what the rest of the name is. -/
theorem rest_name_cons {read : List Char} {c : Char} {l : List Char} {more : List Segment}
    (hc : IsNameChar c) (h : (name (c :: read)).Rest l more) : (name read).Rest (c :: l) more := by
  obtain ⟨cs, w, hcs, hw, rfl, rfl⟩ := h
  have hall : ∀ d ∈ c :: cs, IsNameChar d := List.forall_mem_cons.mpr ⟨hc, hcs⟩
  cases read with
  | nil => exact ⟨.name (c :: cs), w, ⟨by simp, hall⟩, hw, rfl, by simp⟩
  | cons d read => exact ⟨c :: cs, w, hall, hw, rfl, by simp⟩

/-- A name that ends in front of steps. -/
theorem rest_name_end {read : List Char} {l : List Char} {w : List PathStep}
    (hne : read ≠ []) (hw : ∀ t ∈ w, t.WellFormed) (hl : l = written w) :
    (name read).Rest l (nameSegment read ++ segments w) := by
  cases read with
  | nil => exact absurd rfl hne
  | cons d read => exact ⟨[], w, by simp, hw, hl, by simp [nameSegment, Place.segment]⟩

theorem rest_cons_name {read : List Char} {next : PathState} {position : Nat} {c : Char}
    {l : List Char} {done more : List Segment}
    (hs : (name read).step position c = .ok (next, done)) (h : next.Rest l more) :
    (name read).Rest (c :: l) (done ++ more) := by
  simp only [step] at hs
  split at hs
  · next hc =>
    split at hs
    · cases hs
    · next hne =>
      cases hs
      obtain ⟨w, hw, hl, rfl⟩ := rest_pointed h
      exact rest_name_end (fun he => hne (List.isEmpty_iff.mpr he)) hw (hc ▸ hl)
  · split at hs
    · next hc =>
      cases hs
      cases read with
      | nil =>
        obtain ⟨p, w, hp, -, hw, hl, rfl⟩ := h
        exact ⟨p, w, hp, hw, hc ▸ hl, by simp [nameSegment]⟩
      | cons d read =>
        obtain ⟨w, hw, hl, rfl⟩ := rest_bracket h
        exact rest_name_end (by simp) hw (hc ▸ hl)
    · split at hs
      · cases hs
      · next h1 h2 h3 =>
        cases hs
        exact rest_name_cons ⟨h1, h2, h3⟩ h

theorem rest_cons_afterBracket {next : PathState} {position : Nat} {c : Char} {l : List Char}
    {done more : List Segment} (hs : afterBracket.step position c = .ok (next, done))
    (h : next.Rest l more) : afterBracket.Rest (c :: l) (done ++ more) := by
  simp only [step] at hs
  split at hs
  · next hc =>
    cases hs
    obtain ⟨w, hw, hl, rfl⟩ := rest_pointed h
    exact ⟨w, hw, hc ▸ hl, rfl⟩
  · split at hs
    · next hc =>
      cases hs
      obtain ⟨w, hw, hl, rfl⟩ := rest_bracket h
      exact ⟨w, hw, hc ▸ hl, rfl⟩
    · cases hs

theorem rest_cons_opened {bracket : Nat} {next : PathState} {position : Nat} {c : Char}
    {l : List Char} {done more : List Segment}
    (hs : (opened bracket).step position c = .ok (next, done)) (h : next.Rest l more) :
    (opened bracket).Rest (c :: l) (done ++ more) := by
  simp only [step] at hs
  split at hs
  · next hq =>
    cases hs
    obtain ⟨cs, w, hcs, hw, rfl, rfl⟩ := h
    exact ⟨.quoted c cs, w, ⟨hq, hcs⟩, id, hw, by simp [Place.text], by simp⟩
  · next hq =>
    split at hs
    · obtain ⟨hne, -, -⟩ := closeKey_eq_ok hs
      exact absurd rfl hne
    · next hc =>
      cases hs
      obtain ⟨cs, w, hne, hcs, hw, rfl, rfl⟩ := h
      refine ⟨.key (c :: cs), w, ⟨by simpa using hne, ?_, ?_⟩, id, hw, by simp [Place.text],
        by simp⟩
      · rintro d ⟨⟩
        exact hq
      · simp [hcs, Ne.symm hc]

theorem rest_cons_key {bracket : Nat} {read : List Char} {next : PathState} {position : Nat}
    {c : Char} {l : List Char} {done more : List Segment}
    (hs : (key bracket read).step position c = .ok (next, done)) (h : next.Rest l more) :
    (key bracket read).Rest (c :: l) (done ++ more) := by
  simp only [step] at hs
  split at hs
  · next hc =>
    obtain ⟨hne, rfl, rfl⟩ := closeKey_eq_ok hs
    obtain ⟨w, hw, rfl, rfl⟩ := h
    exact ⟨[], w, by simpa using hne, by simp, hw, by simp [hc], by simp⟩
  · next hc =>
    cases hs
    obtain ⟨cs, w, hne, hcs, hw, rfl, rfl⟩ := h
    exact ⟨c :: cs, w, by simpa using hne, by simp [hcs, Ne.symm hc], hw, rfl, by simp⟩

theorem rest_cons_quoted {bracket : Nat} {q : Char} {read : List Char} {next : PathState}
    {position : Nat} {c : Char} {l : List Char} {done more : List Segment}
    (hs : (quoted bracket q read).step position c = .ok (next, done)) (h : next.Rest l more) :
    (quoted bracket q read).Rest (c :: l) (done ++ more) := by
  simp only [step] at hs
  split at hs
  · next hc =>
    cases hs
    obtain ⟨w, hw, rfl, rfl⟩ := h
    exact ⟨[], w, by simp, hw, by simp [hc], by simp [Place.segment]⟩
  · next hc =>
    cases hs
    obtain ⟨cs, w, hcs, hw, rfl, rfl⟩ := h
    exact ⟨c :: cs, w, by simp [hcs, Ne.symm hc], hw, rfl, by simp⟩

/-- One character more: what the reader finds from the next state on, it finds from here. -/
theorem rest_cons {s next : PathState} {position : Nat} {c : Char} {l : List Char}
    {done more : List Segment} (hs : s.step position c = .ok (next, done))
    (h : next.Rest l more) : s.Rest (c :: l) (done ++ more) := by
  cases s with
  | name read => exact rest_cons_name hs h
  | afterBracket => exact rest_cons_afterBracket hs h
  | opened bracket => exact rest_cons_opened hs h
  | key bracket read => exact rest_cons_key hs h
  | quoted bracket q read => exact rest_cons_quoted hs h
  | unquoted bracket read =>
    simp only [step] at hs
    split at hs
    · next hc =>
      cases hs
      obtain ⟨w, hw, rfl, rfl⟩ := h
      exact ⟨w, hw, by simp [hc], by simp⟩
    · cases hs

theorem rest_nil {s : PathState} {position : Nat} {found : List Segment}
    (h : s.finish position = .ok found) : s.Rest [] found := by
  cases s with
  | name read =>
    cases read with
    | nil => cases h
    | cons c read =>
      cases h
      exact ⟨[], [], by simp, by simp, rfl, by simp [nameSegment, Place.segment]⟩
  | afterBracket =>
    cases h
    exact ⟨[], by simp, rfl, rfl⟩
  | opened _ | key _ _ | quoted _ _ _ | unquoted _ _ => cases h

theorem read_cons_eq_ok {s : PathState} {position : Nat} {c : Char} {l : List Char}
    {found : List Segment} : s.read position (c :: l) = .ok found ↔
      ∃ next done more, s.step position c = .ok (next, done) ∧
        next.read (position + 1) l = .ok more ∧ found = done ++ more := by
  rw [read]
  cases s.step position c with
  | error e => simp
  | ok result =>
    obtain ⟨next, done⟩ := result
    simp only [Except.ok.injEq, Prod.mk.injEq]
    constructor
    · intro h
      split at h
      · cases h
      · next more hr =>
        cases h
        exact ⟨next, done, more, ⟨rfl, rfl⟩, hr, rfl⟩
    · rintro ⟨_, _, more, ⟨rfl, rfl⟩, hr, rfl⟩
      rw [hr]

theorem rest_of_read {s : PathState} {position : Nat} {l : List Char} {found : List Segment}
    (h : s.read position l = .ok found) : s.Rest l found := by
  induction l generalizing s position found with
  | nil => exact rest_nil h
  | cons c l ih =>
    obtain ⟨next, done, more, hs, hr, rfl⟩ := read_cons_eq_ok.mp h
    exact rest_cons hs (ih hr)

/-! ## What is written is read -/

/-- Characters that end no segment only move the reader on. -/
theorem read_step {s next : PathState} {position : Nat} {c : Char} {l : List Char}
    (h : s.step position c = .ok (next, [])) :
    s.read position (c :: l) = next.read (position + 1) l := by
  rw [read, h]
  dsimp only
  cases next.read (position + 1) l <;> rfl

theorem read_run {state : List Char → PathState} {cs : List Char}
    (h : ∀ c ∈ cs, ∀ read position,
      (state read).step position c = .ok (state (c :: read), []))
    (read : List Char) (position : Nat) (l : List Char) :
    (state read).read position (cs ++ l) =
      (state (cs.reverse ++ read)).read (position + cs.length) l := by
  induction cs generalizing read position with
  | nil => rfl
  | cons c cs ih =>
    rw [List.cons_append, read_step (h c (List.mem_cons_self ..) read position),
      ih fun d hd => h d (List.mem_cons_of_mem _ hd)]
    simp only [List.reverse_cons, List.append_assoc, List.singleton_append, List.length_cons]
    congr 1
    omega

theorem step_name {c : Char} (h : IsNameChar c) (read : List Char) (position : Nat) :
    (name read).step position c = .ok (.name (c :: read), []) := by
  obtain ⟨h1, h2, h3⟩ := h
  simp [step, h1, h2, h3]

theorem step_key {c : Char} (h : c ≠ ']') (bracket : Nat) (read : List Char) (position : Nat) :
    (key bracket read).step position c = .ok (.key bracket (c :: read), []) := by
  simp [step, h]

theorem step_quoted {c q : Char} (h : c ≠ q) (bracket : Nat) (read : List Char)
    (position : Nat) :
    (quoted bracket q read).step position c = .ok (.quoted bracket q (c :: read), []) := by
  simp [step, h]

/-- A key in brackets is read as its segment, from behind the bracket that opens it. -/
theorem read_bracket {p : Place} (hp : p.WellFormed) (hn : ¬ p.IsName) {l : List Char}
    {more : List Segment} (hl : ∀ position, afterBracket.read position l = .ok more)
    (bracket position : Nat) :
    (opened bracket).read position (p.text.tail ++ l) = .ok (p.segment :: more) := by
  cases p with
  | name cs => exact absurd trivial hn
  | key cs =>
    obtain ⟨hne, hq, hcs⟩ := hp
    cases cs with
    | nil => exact absurd rfl hne
    | cons c cs =>
      have hc : ¬ (c = '\'' ∨ c = '"') := hq c rfl
      have hrun : ∀ d ∈ c :: cs, d ≠ ']' := fun d hd he => hcs (he ▸ hd)
      have hstep : (opened bracket).step position c = .ok (.key bracket [c], []) := by
        rw [step, if_neg hc, if_neg (hrun c (List.mem_cons_self ..))]
      show (opened bracket).read position ((c :: cs ++ [']']) ++ l) = _
      rw [List.append_assoc, List.cons_append, read_step hstep,
        read_run fun d hd => step_key (hrun d (List.mem_cons_of_mem _ hd)) bracket]
      refine read_cons_eq_ok.mpr
        ⟨.afterBracket, [(Place.key (c :: cs)).segment], more, ?_, hl _, rfl⟩
      simp [step, closeKey, hne, Place.segment]
  | quoted q cs =>
    obtain ⟨hq, hcs⟩ := hp
    have hq : q = '\'' ∨ q = '"' := hq
    have hrun : ∀ d ∈ cs, d ≠ q := fun d hd he => hcs (he ▸ hd)
    have hstep : (opened bracket).step position q = .ok (.quoted bracket q [], []) := by
      rw [step, if_pos hq]
    have hclose : (PathState.quoted bracket q (cs.reverse ++ [])).step
        (position + 1 + cs.length) q = .ok (.unquoted bracket cs.reverse, []) := by
      simp [step]
    show (opened bracket).read position ((q :: cs ++ [q, ']']) ++ l) = _
    rw [List.append_assoc, List.cons_append, read_step hstep,
      read_run fun d hd => step_quoted (hrun d hd) bracket, List.cons_append, read_step hclose]
    refine read_cons_eq_ok.mpr
      ⟨.afterBracket, [(Place.quoted q cs).segment], more, ?_, hl _, rfl⟩
    simp [step, Place.segment]

theorem text_of_not_isName {p : Place} (h : ¬ p.IsName) : p.text = '[' :: p.text.tail := by
  cases p with
  | name cs => exact absurd trivial h
  | key cs => rfl
  | quoted q cs => rfl

theorem read_place {p : Place} (hp : p.WellFormed) {l : List Char} {more : List Segment}
    (hbracket : ∀ position, afterBracket.read position l = .ok more)
    (hname : ∀ c read position,
      (name (c :: read)).read position l = .ok (nameSegment (c :: read) ++ more))
    (position : Nat) : (name []).read position (p.text ++ l) = .ok (p.segment :: more) := by
  by_cases hn : p.IsName
  · cases p with
    | name cs =>
      obtain ⟨hne, hcs⟩ := hp
      obtain ⟨c, read, hr⟩ := List.exists_cons_of_ne_nil (List.reverse_ne_nil_iff.mpr hne)
      show (name []).read position (cs ++ l) = _
      rw [read_run fun d hd => step_name (hcs d hd), List.append_nil, hr, hname, ← hr]
      simp [nameSegment, Place.segment, hne]
    | key cs => exact absurd hn id
    | quoted q cs => exact absurd hn id
  · have hstep : (name []).step position '[' = .ok (.opened position, []) := rfl
    rw [text_of_not_isName hn, List.cons_append, read_step hstep]
    exact read_bracket hp hn hbracket _ _

/-- Steps are read from behind a bracket, and from behind a name, which they end. -/
theorem read_written {w : List PathStep} (hw : ∀ t ∈ w, t.WellFormed) :
    (∀ position, afterBracket.read position (written w) = .ok (segments w)) ∧
    ∀ c read position, (name (c :: read)).read position (written w) =
      .ok (nameSegment (c :: read) ++ segments w) := by
  induction w with
  | nil => exact ⟨fun _ => rfl, fun c read _ => by simp [PathState.read, finish]⟩
  | cons t w ih =>
    obtain ⟨hbracket, hname⟩ := ih fun u hu => hw u (List.mem_cons_of_mem _ hu)
    obtain ⟨hp, hn⟩ := hw t (List.mem_cons_self ..)
    obtain ⟨pointed, p⟩ := t
    rw [written_cons, segments_cons]
    cases pointed with
    | true =>
      refine ⟨fun position => ?_, fun c read position => ?_⟩
      · exact read_cons_eq_ok.mpr ⟨.name [], [], _, rfl, read_place hp hbracket hname _, rfl⟩
      · exact read_cons_eq_ok.mpr ⟨.name [], _, _, rfl, read_place hp hbracket hname _, rfl⟩
    | false =>
      have hn : ¬ p.IsName := fun h => Bool.noConfusion (hn h)
      show (∀ position, afterBracket.read position (p.text ++ written w) = _) ∧
        ∀ c read position, (name (c :: read)).read position (p.text ++ written w) = _
      rw [text_of_not_isName hn]
      refine ⟨fun position => ?_, fun c read position => ?_⟩
      · exact read_cons_eq_ok.mpr ⟨.opened position, [], _, rfl,
          read_bracket hp hn hbracket _ _, rfl⟩
      · exact read_cons_eq_ok.mpr ⟨.opened position, _, _, rfl,
          read_bracket hp hn hbracket _ _, rfl⟩

end PathState

namespace Spelling

variable (w : Spelling)

theorem read_text (position : Nat) :
    (PathState.name []).read position w.text = .ok w.segments := by
  obtain ⟨hbracket, hname⟩ := PathState.read_written w.tail_ok
  exact PathState.read_place w.head_ok hbracket hname position

end Spelling

/-- **Paths as they are written.** The texts that are read as paths are those of spellings that are
not blank, and their segments are those of the spelling. -/
theorem PropertyPath.parse_eq_ok_iff {raw : String} {p : PropertyPath} :
    parse raw = .ok p ↔ Text.isBlank raw = false ∧
      ∃ w : Spelling, raw.toList = w.text ∧ p = ⟨raw, w.segments⟩ := by
  unfold parse
  cases hb : Text.isBlank raw with
  | true => simp
  | false =>
    simp only [Bool.false_eq_true, ↓reduceIte, true_and]
    constructor
    · intro h
      cases hr : (PathState.name []).read 0 raw.toList with
      | error e =>
        rw [hr] at h
        cases h
      | ok found =>
        rw [hr] at h
        cases h
        obtain ⟨head, tail, hhead, htail, ht, rfl⟩ := PathState.rest_of_read hr
        exact ⟨⟨head, tail, hhead, htail⟩, ht, rfl⟩
    · rintro ⟨w, ht, rfl⟩
      rw [ht, w.read_text]
      rfl

end Formwork
