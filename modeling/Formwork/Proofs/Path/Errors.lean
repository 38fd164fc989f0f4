import Formwork.Proofs.Except
import Formwork.Proofs.Path.Spelling

/-!
# Where the error of a path is

- **Passing** (`PathState.Passes`): a reader reads characters and goes on. A reader that passes the
  front of a text reads the whole text as it reads the rest (`read_append`).
- **The cause** (`exists_of_read_eq_error`): a text is refused at a character that the reader does
  not step over, or at its end.
- **Where a reader stands** (`PathState.Placed`): behind an opening bracket it keeps the bracket's
  position, and it stands in front of a name at the start or behind a point. One step keeps this
  (`Placed.step`), and so does every run (`Placed.of_passes`).
- **Errors** (`PropertyPath.parse_error`): what each error says of the text at its position, and
  which errors the text up to the position decides.
-/

namespace Formwork.PathState

variable {s t next : PathState} {position : Nat} {c : Char} {l front : List Char}
  {done : List Segment} {e : PathError}

/-! ## Passing characters -/

/-- A reader reads characters one after the other, from a position on, and goes on. -/
inductive Passes : PathState → Nat → List Char → PathState → Prop
  | nil {s : PathState} {position : Nat} : Passes s position [] s
  | cons {s next t : PathState} {position : Nat} {c : Char} {l : List Char}
      {done : List Segment} (hstep : s.step position c = .ok (next, done))
      (hrest : Passes next (position + 1) l t) : Passes s position (c :: l) t

/-- Behind characters that were passed, the rest of the text decides. -/
theorem read_append (h : Passes s position front t) :
    ∃ done, ∀ l, s.read position (front ++ l) =
      (t.read (position + front.length) l).map (done ++ ·) := by
  induction h with
  | @nil s position =>
    refine ⟨[], fun l => ?_⟩
    rw [List.nil_append, List.length_nil, Nat.add_zero]
    cases s.read position l <;> rfl
  | @cons s next t position c front done hstep _ ih =>
    obtain ⟨more, hmore⟩ := ih
    refine ⟨done ++ more, fun l => ?_⟩
    have hposition : position + (c :: front).length = position + 1 + front.length := by
      simp only [List.length_cons]
      omega
    rw [List.cons_append, read, hstep, hposition]
    dsimp only
    rw [hmore l]
    cases t.read (position + 1 + front.length) l with
    | error e => rfl
    | ok found => simp [Except.map]

/-- A reader that refuses a character refuses it in front of any other text. -/
theorem read_eq_error_of_step (h : Passes s position front t)
    (hc : t.step (position + front.length) c = .error e) (l : List Char) :
    s.read position (front ++ c :: l) = .error e := by
  obtain ⟨done, hread⟩ := read_append h
  rw [hread, read, hc]
  rfl

/-- A text is refused at a character that the reader does not step over, or at its end. -/
theorem exists_of_read_eq_error (h : s.read position l = .error e) :
    (∃ front c back t, l = front ++ c :: back ∧ Passes s position front t ∧
      t.step (position + front.length) c = .error e) ∨
    ∃ t, Passes s position l t ∧ t.finish (position + l.length) = .error e := by
  induction l generalizing s position with
  | nil => exact .inr ⟨s, .nil, h⟩
  | cons c l ih =>
    cases hstep : s.step position c with
    | error e' =>
      rw [read, hstep] at h
      obtain rfl : e' = e := Except.error.inj h
      exact .inl ⟨[], c, l, s, rfl, .nil, hstep⟩
    | ok result =>
      obtain ⟨next, done⟩ := result
      have hrest : next.read (position + 1) l = .error e := by
        rw [read, hstep] at h
        dsimp only at h
        split at h
        · next hr => rw [hr, h]
        · cases h
      have hposition : ∀ n, position + 1 + n = position + (n + 1) := fun n => by omega
      rcases ih hrest with ⟨front, d, back, t, rfl, hpass, hd⟩ | ⟨t, hpass, hend⟩
      · refine .inl ⟨c :: front, d, back, t, rfl, .cons hstep hpass, ?_⟩
        rwa [List.length_cons, ← hposition]
      · refine .inr ⟨t, .cons hstep hpass, ?_⟩
        rwa [List.length_cons, ← hposition]

/-! ## Where a reader stands -/

/-- What is known of the characters that a reader has passed. -/
def Placed (front : List Char) : PathState → Prop
  | name [] => ∀ c ∈ front.getLast?, c = '.'
  | name (_ :: _) => True
  | afterBracket => ']' ∈ front
  | opened bracket | key bracket _ | quoted bracket _ _ | unquoted bracket _ =>
    front[bracket]? = some '['

theorem placed_opened (front : List Char) : (opened front.length).Placed (front ++ ['[']) := by
  simp [Placed]

/-- Reading on leaves the bracket where it is. -/
theorem getElem?_append_of_eq_some {bracket : Nat} (h : front[bracket]? = some '[') :
    (front ++ l)[bracket]? = some '[' := by
  obtain ⟨hlt, -⟩ := List.getElem?_eq_some_iff.mp h
  rw [List.getElem?_append_left hlt, h]

theorem closeKey_placed {read : List Char}
    (h : closeKey read position = .ok (next, done)) : next.Placed (front ++ [']']) := by
  obtain ⟨-, rfl, -⟩ := closeKey_eq_ok h
  simp [Placed]

/-- A step keeps what is known of the characters that were passed. -/
theorem Placed.step (hs : s.Placed front) (h : s.step front.length c = .ok (next, done)) :
    next.Placed (front ++ [c]) := by
  cases s with
  | name read =>
    simp only [PathState.step] at h
    split at h
    · next hc =>
      split at h
      · cases h
      · cases h
        simp [Placed, hc]
    · split at h
      · next hc =>
        cases h
        exact hc ▸ placed_opened front
      · split at h
        · cases h
        · cases h
          trivial
  | afterBracket =>
    simp only [PathState.step] at h
    split at h
    · next hc =>
      cases h
      simp [Placed, hc]
    · split at h
      · next hc =>
        cases h
        exact hc ▸ placed_opened front
      · cases h
  | opened bracket =>
    simp only [PathState.step] at h
    split at h
    · cases h
      exact getElem?_append_of_eq_some hs
    · split at h
      · next hc =>
        rw [hc]
        exact closeKey_placed h
      · cases h
        exact getElem?_append_of_eq_some hs
  | key bracket read =>
    simp only [PathState.step] at h
    split at h
    · next hc =>
      rw [hc]
      exact closeKey_placed h
    · cases h
      exact getElem?_append_of_eq_some hs
  | quoted bracket quote read =>
    simp only [PathState.step] at h
    split at h
    · cases h
      exact getElem?_append_of_eq_some hs
    · cases h
      exact getElem?_append_of_eq_some hs
  | unquoted bracket read =>
    simp only [PathState.step] at h
    split at h
    · next hc =>
      cases h
      simp [Placed, hc]
    · cases h

/-- All that is read from the start keeps it. -/
theorem Placed.of_passes (hs : s.Placed front) (h : Passes s front.length l t) :
    t.Placed (front ++ l) := by
  induction l generalizing s front with
  | nil =>
    cases h
    rwa [List.append_nil]
  | cons c l ih =>
    obtain _ | ⟨hstep, hrest⟩ := h
    have hnext := ih (hs.step hstep) (by rwa [List.length_append])
    rwa [List.append_assoc] at hnext

theorem placed_of_passes (h : Passes (name []) 0 front t) : t.Placed front := by
  have hstart : (name []).Placed [] := by simp [Placed]
  exact hstart.of_passes h

/-! ## What an error says -/

theorem closeKey_eq_error {read : List Char} (h : closeKey read position = .error e) :
    e = .emptySegment position := by
  unfold closeKey at h
  dsimp only at h
  split at h
  · cases h
    rfl
  · cases h

/-- A character that is refused is unexpected, or it ends an empty name or key. There is no blank
text up to it: it is no white space, or a bracket stands in front of it. -/
theorem step_eq_error (hs : s.Placed front) (h : s.step front.length c = .error e) :
    (e = .unexpectedCharacter c front.length ∨
      e = .emptySegment front.length ∧ (c = '.' ∨ c = ']')) ∧
    ∃ d ∈ front ++ [c], Text.isSpace d = false := by
  have hself : c = '.' ∨ c = ']' → ∃ d ∈ front ++ [c], Text.isSpace d = false := by
    rintro (rfl | rfl)
    · exact ⟨'.', by simp, rfl⟩
    · exact ⟨']', by simp, rfl⟩
  cases s with
  | name read =>
    simp only [step] at h
    split at h
    · next hc =>
      split at h
      · cases h
        exact ⟨.inr ⟨rfl, .inl hc⟩, hself (.inl hc)⟩
      · cases h
    · split at h
      · cases h
      · split at h
        · next hc =>
          cases h
          exact ⟨.inl rfl, hself (.inr hc)⟩
        · cases h
  | afterBracket =>
    simp only [step] at h
    split at h
    · cases h
    · split at h
      · cases h
      · cases h
        exact ⟨.inl rfl, ']', List.mem_append_left _ hs, rfl⟩
  | opened bracket =>
    simp only [step] at h
    split at h
    · cases h
    · split at h
      · next hc => exact ⟨.inr ⟨closeKey_eq_error h, .inr hc⟩, hself (.inr hc)⟩
      · cases h
  | key bracket read =>
    simp only [step] at h
    split at h
    · next hc => exact ⟨.inr ⟨closeKey_eq_error h, .inr hc⟩, hself (.inr hc)⟩
    · cases h
  | quoted bracket quote read =>
    simp only [step] at h
    split at h <;> cases h
  | unquoted bracket read =>
    simp only [step] at h
    split at h
    · cases h
    · cases h
      exact ⟨.inl rfl, '[', List.mem_append_left _ (List.mem_of_getElem? hs), rfl⟩

/-- At the end a bracket is open, or a name is missing behind a point. -/
theorem finish_eq_error (hs : s.Placed l) (h : s.finish l.length = .error e) :
    (∃ bracket, e = .unclosedBracket bracket ∧ l[bracket]? = some '[') ∨
      e = .emptySegment l.length ∧ ∀ c ∈ l.getLast?, c = '.' := by
  cases s with
  | name read =>
    cases read with
    | nil =>
      cases h
      exact .inr ⟨rfl, hs⟩
    | cons d read => cases h
  | afterBracket => cases h
  | opened bracket | key bracket _ | quoted bracket _ _ | unquoted bracket _ =>
    cases h
    exact .inl ⟨bracket, rfl, hs⟩

end Formwork.PathState

namespace Formwork.PropertyPath

variable {raw : String} {e : PathError}

/-! ## Errors -/

/-- The characters of a text up to a position and the one at it decide that it is refused with an
error, and so is every other text that starts with them. -/
def DecidedAt (raw : String) (position : Nat) (e : PathError) : Prop :=
  ∀ other : String, other.toList.take (position + 1) = raw.toList.take (position + 1) →
    parse other = .error e

/-- What each error says of a text that is not blank. -/
inductive Caused (raw : String) : PathError → Prop
  | unexpected {c : Char} {position : Nat} (hc : raw.toList[position]? = some c)
      (hd : DecidedAt raw position (.unexpectedCharacter c position)) :
      Caused raw (.unexpectedCharacter c position)
  | empty {c : Char} {position : Nat} (hc : raw.toList[position]? = some c)
      (hcause : c = '.' ∨ c = ']') (hd : DecidedAt raw position (.emptySegment position)) :
      Caused raw (.emptySegment position)
  | unclosed {position : Nat} (hc : raw.toList[position]? = some '[') :
      Caused raw (.unclosedBracket position)
  | ended (hc : raw.toList.getLast? = some '.') : Caused raw (.emptySegment raw.toList.length)

theorem parse_eq_error_iff :
    parse raw = .error e ↔ (Text.isBlank raw = true ∧ e = .empty) ∨
      (Text.isBlank raw = false ∧ (PathState.name []).read 0 raw.toList = .error e) := by
  unfold parse
  cases Text.isBlank raw with
  | true => simp [eq_comm]
  | false => simp [map_eq_error]

/-- A text that is refused at a character is refused with all that may follow the character. -/
theorem decidedAt_of_step {front back : List Char} {c : Char} {t : PathState}
    (hraw : raw.toList = front ++ c :: back) (hpass : PathState.Passes (.name []) 0 front t)
    (hc : t.step front.length c = .error e) : DecidedAt raw front.length e := by
  intro other hsame
  have htake : raw.toList.take (front.length + 1) = front ++ [c] := by
    rw [hraw, ← List.singleton_append, ← List.append_assoc]
    exact List.take_left' (by simp)
  obtain ⟨rest, hother⟩ : ∃ rest, other.toList = front ++ c :: rest := by
    refine ⟨other.toList.drop (front.length + 1), ?_⟩
    conv_lhs => rw [← List.take_append_drop (front.length + 1) other.toList, hsame, htake]
    simp
  obtain ⟨-, d, hd, hspace⟩ := PathState.step_eq_error (PathState.placed_of_passes hpass) hc
  refine parse_eq_error_iff.mpr (.inr ⟨?_, ?_⟩)
  · rw [← Bool.not_eq_true, Text.isBlank, List.all_eq_true]
    intro hall
    have hd : d ∈ other.toList := by
      rw [hother, ← List.singleton_append, ← List.append_assoc]
      exact List.mem_append_left _ hd
    rw [hall d hd] at hspace
    cases hspace
  · rw [hother]
    exact PathState.read_eq_error_of_step hpass (by rwa [Nat.zero_add]) rest

/-- Every error but that of a blank text has its cause in the text. -/
theorem caused_of_parse (hb : Text.isBlank raw = false) (h : parse raw = .error e) :
    Caused raw e := by
  obtain ⟨hb', -⟩ | ⟨-, hread⟩ := parse_eq_error_iff.mp h
  · exact absurd (hb'.symm.trans hb) Bool.noConfusion
  rcases PathState.exists_of_read_eq_error hread with
    ⟨front, c, back, t, hraw, hpass, hc⟩ | ⟨t, hpass, hend⟩
  · rw [Nat.zero_add] at hc
    have hd := decidedAt_of_step hraw hpass hc
    have hat : raw.toList[front.length]? = some c := by rw [hraw]; simp
    obtain ⟨rfl | ⟨rfl, hcause⟩, -⟩ :=
      PathState.step_eq_error (PathState.placed_of_passes hpass) hc
    · exact .unexpected hat hd
    · exact .empty hat hcause hd
  · rw [Nat.zero_add] at hend
    obtain ⟨bracket, rfl, hbracket⟩ | ⟨rfl, hlast⟩ :=
      PathState.finish_eq_error (PathState.placed_of_passes hpass) hend
    · exact .unclosed hbracket
    · have hne : raw.toList ≠ [] := by
        intro hnil
        rw [Text.isBlank, hnil] at hb
        cases hb
      have hsome := List.getLast?_eq_some_getLast hne
      exact .ended (by rw [hsome, hlast _ hsome])

/-- **Errors of paths point at their cause.** A text is refused as empty iff it is blank. An
unexpected character is the one at its position; an open bracket stands at its position; and where a
name or a key is empty, there is a point or a closing bracket, or the text ends behind a point. An
unexpected character, and an empty name or key inside the text, is decided by the characters up to
its position: every text that starts with them is refused with the same error. -/
theorem parse_error (raw : String) :
    (parse raw = .error .empty ↔ Text.isBlank raw = true) ∧
    (∀ c position, parse raw = .error (.unexpectedCharacter c position) →
      raw.toList[position]? = some c ∧
        DecidedAt raw position (.unexpectedCharacter c position)) ∧
    (∀ position, parse raw = .error (.unclosedBracket position) →
      raw.toList[position]? = some '[') ∧
    ∀ position, parse raw = .error (.emptySegment position) →
      (raw.toList[position]? = some '.' ∨ raw.toList[position]? = some ']' ∨
        position = raw.toList.length ∧ raw.toList.getLast? = some '.') ∧
      (position < raw.toList.length → DecidedAt raw position (.emptySegment position)) := by
  have hblank : ∀ e, e ≠ .empty → parse raw = .error e → Caused raw e := by
    intro e hne h
    cases hb : Text.isBlank raw with
    | true =>
      obtain ⟨-, he⟩ | ⟨hb', -⟩ := parse_eq_error_iff.mp h
      · exact absurd he hne
      · exact absurd (hb.symm.trans hb') Bool.noConfusion
    | false => exact caused_of_parse hb h
  refine ⟨⟨fun h => ?_, fun hb => parse_eq_error_iff.mpr (.inl ⟨hb, rfl⟩)⟩,
    fun c position h => ?_, fun position h => ?_, fun position h => ?_⟩
  · cases hb : Text.isBlank raw with
    | true => rfl
    | false => cases caused_of_parse hb h
  · cases hblank _ PathError.noConfusion h with
    | unexpected hc hd => exact ⟨hc, hd⟩
  · cases hblank _ PathError.noConfusion h with
    | unclosed hc => exact hc
  · cases hblank _ PathError.noConfusion h with
    | empty hc hcause hd =>
      rcases hcause with rfl | rfl
      · exact ⟨.inl hc, fun _ => hd⟩
      · exact ⟨.inr (.inl hc), fun _ => hd⟩
    | ended hc => exact ⟨.inr (.inr ⟨rfl, hc⟩), fun hlt => absurd hlt (Nat.lt_irrefl _)⟩

/-- A character behind the quote that ends a key is refused, whatever comes after it. -/
theorem parse_error_closingQuote :
    parse "map['a'x" = .error (.unexpectedCharacter 'x' 7) ∧
      "map['a'x".toList[7]? = some 'x' ∧
      "map['a'x].name".toList.take (7 + 1) = "map['a'x".toList.take (7 + 1) ∧
      parse "map['a'x].name" = .error (.unexpectedCharacter 'x' 7) := by
  have h : parse "map['a'x" = .error (.unexpectedCharacter 'x' 7) := by decide +kernel
  have hsame : "map['a'x].name".toList.take (7 + 1) = "map['a'x".toList.take (7 + 1) := by
    decide +kernel
  obtain ⟨-, hunexpected, -⟩ := parse_error "map['a'x"
  obtain ⟨hat, hdecided⟩ := hunexpected _ _ h
  exact ⟨h, hat, hsame, hdecided _ hsame⟩

end Formwork.PropertyPath
