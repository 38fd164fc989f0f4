import Formwork.Text.Pattern.Basic

/-!
# What a pattern matches

- **Meaning** (`Pattern.Matches`): the parts of a text that a pattern matches, with the characters
  on both sides of them, by recursion on the pattern. A repetition matches if there is a number of
  rounds within its bounds.
- **One character** (`matches_cons_iff`): what a pattern matches from a character on is what the
  patterns of `after` match behind it. Rounds that match nothing may come first in a repetition
  (`times_cons_iff`).
- **Texts** (`matchesWhole_iff`, `matchesWithin_iff`): the matcher decides whether the pattern
  matches a whole text, or a part of it.
-/

namespace Formwork.Text

/-- A set of parts of texts, each with the characters on both sides of it. -/
abbrev PartSet := Option Char → List Char → Option Char → Prop

namespace PartSet

variable {L M : PartSet} {c : Char} {u : List Char} {p q : Option Char} {n : Nat}

/-- A part of one set, and right behind it a part of another one. -/
def andThen (L M : PartSet) : PartSet := fun before part after =>
  ∃ v w, part = v ++ w ∧ L before v (w.head?.or after) ∧ M (v.getLast?.or before) w after

/-- A number of parts, each right behind the one before. -/
def times (L : PartSet) : Nat → PartSet
  | 0 => fun _ part _ => part = []
  | n + 1 => L.andThen (L.times n)

theorem andThen_nil_iff : L.andThen M p [] q ↔ L p [] q ∧ M p [] q := by
  constructor
  · rintro ⟨v, w, happend, hv, hw⟩
    obtain ⟨rfl, rfl⟩ := List.nil_eq_append_iff.mp happend
    exact ⟨hv, hw⟩
  · exact fun ⟨hv, hw⟩ => ⟨[], [], rfl, hv, hw⟩

/-- Either all is behind a first part without characters, or the first part has the first
character. -/
theorem andThen_cons_iff :
    L.andThen M p (c :: u) q ↔
      (L p [] (some c) ∧ M p (c :: u) q) ∨
        ∃ v w, u = v ++ w ∧ L p (c :: v) (w.head?.or q) ∧ M (v.getLast?.or (some c)) w q := by
  constructor
  · rintro ⟨v, w, happend, hv, hw⟩
    cases v with
    | nil =>
      obtain rfl : c :: u = w := happend
      exact .inl ⟨hv, hw⟩
    | cons d v =>
      obtain ⟨rfl, rfl⟩ := List.cons.inj happend
      refine .inr ⟨v, w, rfl, hv, ?_⟩
      rwa [List.getLast?_cons, Option.some_or, ← Option.or_some] at hw
  · rintro (⟨hv, hw⟩ | ⟨v, w, rfl, hv, hw⟩)
    · exact ⟨[], c :: u, rfl, hv, hw⟩
    · refine ⟨c :: v, w, rfl, hv, ?_⟩
      rwa [List.getLast?_cons, Option.some_or, ← Option.or_some]

theorem times_nil_iff : L.times n p [] q ↔ n = 0 ∨ L p [] q := by
  induction n with
  | zero => simp [times]
  | succ n ih =>
    rw [times, andThen_nil_iff, ih]
    simp only [Nat.add_eq_zero_iff, Nat.succ_ne_self, and_false, false_or]
    exact ⟨fun h => h.1, fun h => ⟨h, .inr h⟩⟩

/-- Some rounds without characters, then one with the first character, and then the others. -/
theorem times_cons_iff :
    L.times n p (c :: u) q ↔
      ∃ blank others, n = blank + 1 + others ∧ (blank = 0 ∨ L p [] (some c)) ∧
        ∃ v w, u = v ++ w ∧ L p (c :: v) (w.head?.or q) ∧
          L.times others (v.getLast?.or (some c)) w q := by
  induction n with
  | zero => simp [times]; omega
  | succ n ih =>
    rw [times, andThen_cons_iff, ih]
    constructor
    · rintro (⟨hblank, blank, others, rfl, -, hrest⟩ | ⟨v, w, rfl, hv, hw⟩)
      · exact ⟨blank + 1, others, by omega, .inr hblank, hrest⟩
      · exact ⟨0, n, by omega, .inl rfl, v, w, rfl, hv, hw⟩
    · rintro ⟨blank, others, hn, hblank, hrest⟩
      cases blank with
      | zero =>
        obtain rfl : n = others := by omega
        exact .inr hrest
      | succ blank =>
        have hblank : L p [] (some c) := hblank.resolve_left (Nat.succ_ne_zero _)
        exact .inl ⟨hblank, blank, others, by omega, .inr hblank, hrest⟩

end PartSet

namespace Pattern

variable {a b : Pattern} {c : Char} {u text : List Char} {p q : Option Char}

/-! ## Meaning -/

/-- The parts of texts that a pattern matches. -/
def Matches : Pattern → PartSet
  | empty => fun _ part _ => part = []
  | one s => fun _ part _ => ∃ c, part = [c] ∧ s.contains c = true
  | place t => fun before part after => part = [] ∧ t.holds ⟨before, after⟩ = true
  | sequence a b => a.Matches.andThen b.Matches
  | choice a b => fun before part after => a.Matches before part after ∨ b.Matches before part after
  | repeated a b => fun before part after =>
    ∃ n, b.least ≤ n ∧ (∀ m ∈ b.most, n ≤ m) ∧ a.Matches.times n before part after

/-- The pattern matches a whole text. -/
def MatchesAll (a : Pattern) (text : List Char) : Prop := a.Matches none text none

theorem accepts_iff : a.accepts ⟨p, q⟩ = true ↔ a.Matches p [] q := by
  induction a with
  | empty => simp [accepts, Matches]
  | one s => simp [accepts, Matches]
  | place t => simp [accepts, Matches]
  | sequence a b iha ihb =>
    rw [accepts, Bool.and_eq_true, iha, ihb, Matches, PartSet.andThen_nil_iff]
  | choice a b iha ihb => rw [accepts, Bool.or_eq_true, iha, ihb, Matches]
  | repeated a b ih =>
    rw [accepts, Bool.or_eq_true, ih, beq_iff_eq, Matches]
    simp only [PartSet.times_nil_iff]
    constructor
    · rintro (hzero | ha)
      · exact ⟨0, Nat.le_of_eq hzero, fun m _ => Nat.zero_le m, .inl rfl⟩
      · exact ⟨b.least, Nat.le_refl _, b.le, .inr ha⟩
    · rintro ⟨n, hle, -, rfl | ha⟩
      · exact .inl (Nat.le_zero.mp hle)
      · exact .inr ha

/-! ## One character -/

theorem matches_andThen_iff : (andThen a b).Matches p u q ↔ (sequence a b).Matches p u q := by
  unfold andThen
  split
  · rw [Matches]
    constructor
    · exact fun hb => ⟨[], u, rfl, rfl, hb⟩
    · rintro ⟨v, w, rfl, rfl, hb⟩
      exact hb
  · rfl

/-- What follows the first character of a sequence, if that character is in its first part. -/
theorem exists_mem_map_andThen_iff {l : List Pattern}
    (h : ∀ u q, a.Matches p (c :: u) q ↔ ∃ d ∈ l, d.Matches (some c) u q) :
    (∃ d ∈ l.map (andThen · b), d.Matches (some c) u q) ↔
      ∃ v w, u = v ++ w ∧ a.Matches p (c :: v) (w.head?.or q) ∧
        b.Matches (v.getLast?.or (some c)) w q := by
  constructor
  · rintro ⟨_, hmap, hd⟩
    obtain ⟨d, hmem, rfl⟩ := List.mem_map.mp hmap
    obtain ⟨v, w, rfl, hv, hw⟩ := matches_andThen_iff.mp hd
    exact ⟨v, w, rfl, (h _ _).mpr ⟨d, hmem, hv⟩, hw⟩
  · rintro ⟨v, w, rfl, hv, hw⟩
    obtain ⟨d, hmem, hd⟩ := (h _ _).mp hv
    exact ⟨_, List.mem_map.mpr ⟨d, hmem, rfl⟩, matches_andThen_iff.mpr ⟨v, w, rfl, hd, hw⟩⟩

theorem exists_mem_after_repeated_iff {place : Place} {b : Bounds} {motive : Pattern → Prop} :
    (∃ d ∈ (repeated a b).after place c, motive d) ↔
      b.most ≠ some 0 ∧
        ∃ d ∈ (a.after place c).map (andThen · (repeated a (b.next (a.accepts place)))),
          motive d := by
  by_cases h : b.most = some 0 <;> simp [after, h]

/-- A pattern matches from a character on iff one of those that `after` lists matches the rest. -/
theorem matches_cons_iff :
    a.Matches p (c :: u) q ↔ ∃ d ∈ a.after ⟨p, some c⟩ c, d.Matches (some c) u q := by
  induction a generalizing u q with
  | empty => simp [after, Matches]
  | one s =>
    rw [after]
    split
    · next hs =>
      simp only [Matches, List.mem_singleton, exists_eq_left]
      constructor
      · rintro ⟨d, hd, -⟩
        exact (List.cons.inj hd).2
      · rintro rfl
        exact ⟨c, rfl, hs⟩
    · next hs =>
      refine iff_of_false ?_ (by simp)
      rintro ⟨d, hd, hcontains⟩
      obtain ⟨rfl, -⟩ := List.cons.inj hd
      exact hs hcontains
  | place t => simp [after, Matches]
  | sequence a b iha ihb =>
    have hfirst := exists_mem_map_andThen_iff (b := b) (u := u) (q := q)
      fun u q => iha (u := u) (q := q)
    rw [Matches, PartSet.andThen_cons_iff, ← accepts_iff, ihb, ← hfirst, after]
    split
    · next haccepts =>
      simp only [haccepts, true_and, List.mem_append, or_and_right, exists_or]
      exact or_comm
    · next haccepts => simp [haccepts]
  | choice a b iha ihb =>
    show a.Matches p (c :: u) q ∨ b.Matches p (c :: u) q ↔ _
    rw [iha, ihb, after]
    simp only [List.mem_append, or_and_right, exists_or]
  | repeated a b ih =>
    rw [exists_mem_after_repeated_iff, exists_mem_map_andThen_iff fun u q => ih]
    show (∃ n, b.least ≤ n ∧ (∀ m ∈ b.most, n ≤ m) ∧ a.Matches.times n p (c :: u) q) ↔ _
    simp only [PartSet.times_cons_iff, ← accepts_iff]
    constructor
    · rintro ⟨n, hleast, hmost, blank, others, rfl, hblank, v, w, rfl, hv, hw⟩
      refine ⟨?_, v, w, rfl, hv, others, ?_, fun k hk => ?_, hw⟩
      · intro hzero
        have := hmost 0 hzero
        omega
      · show (if a.accepts ⟨p, some c⟩ then 0 else b.least - 1) ≤ others
        rcases hblank with rfl | hblank
        · split <;> omega
        · rw [if_pos hblank]
          exact Nat.zero_le _
      · obtain ⟨m, hm, rfl⟩ := Option.map_eq_some_iff.mp hk
        have := hmost m hm
        omega
    · rintro ⟨hne, v, w, rfl, hv, others, hleast, hmost, hw⟩
      have hroom : ∀ m ∈ b.most, others + 1 ≤ m := by
        intro m hm
        have hpos : m ≠ 0 := fun hzero => hne (by rw [hm, hzero])
        have := hmost (m - 1) (Option.map_eq_some_iff.mpr ⟨m, hm, rfl⟩)
        omega
      replace hleast : (if a.accepts ⟨p, some c⟩ then 0 else b.least - 1) ≤ others := hleast
      split at hleast
      · next haccepts =>
        -- the rounds still missing match nothing in front of the character
        refine ⟨max (others + 1) b.least, by omega, fun m hm => ?_,
          max (others + 1) b.least - 1 - others, others, by omega, .inr haccepts,
          v, w, rfl, hv, hw⟩
        have := hroom m hm
        have := b.le m hm
        omega
      · exact ⟨others + 1, by omega, hroom, 0, others, by omega, .inl rfl, v, w, rfl, hv, hw⟩

/-! ## Texts -/

theorem anyMatches_iff {patterns : List Pattern} :
    anyMatches p patterns text = true ↔ ∃ a ∈ patterns, a.Matches p text none := by
  induction text generalizing p patterns with
  | nil =>
    rw [anyMatches, List.any_eq_true]
    exact exists_congr fun a => and_congr_right fun _ => accepts_iff
  | cons c rest ih =>
    rw [anyMatches, ih]
    simp only [List.mem_eraseDups, List.mem_flatMap]
    constructor
    · rintro ⟨d, ⟨a, ha, hd⟩, hmatch⟩
      exact ⟨a, ha, matches_cons_iff.mpr ⟨d, hd, hmatch⟩⟩
    · rintro ⟨a, ha, hmatch⟩
      obtain ⟨d, hd, hmatch⟩ := matches_cons_iff.mp hmatch
      exact ⟨d, ⟨a, ha, hd⟩, hmatch⟩

/-- The matcher decides whether a pattern matches a text. -/
theorem matchesWhole_iff : a.matchesWhole text = true ↔ a.MatchesAll text := by
  rw [matchesWhole, anyMatches_iff]
  simp [MatchesAll]

theorem matches_anything (p : Option Char) (u : List Char) (q : Option Char) :
    anything.Matches p u q := by
  have htimes : (one .all).Matches.times u.length p u q := by
    induction u generalizing p with
    | nil => rfl
    | cons c u ih => exact ⟨[c], u, rfl, ⟨c, rfl, rfl⟩, ih _⟩
  exact ⟨u.length, Nat.zero_le _, by simp [Bounds.atLeast], htimes⟩

/-- A pattern matches within a text iff it matches a part of it. -/
theorem matchesWithin_iff :
    a.matchesWithin text = true ↔
      ∃ u v w, text = u ++ (v ++ w) ∧ a.Matches u.getLast? v w.head? := by
  rw [matchesWithin, matchesWhole_iff]
  constructor
  · rintro ⟨u, _, rfl, -, v, w, rfl, hv, -⟩
    exact ⟨u, v, w, rfl, by simpa using hv⟩
  · rintro ⟨u, v, w, rfl, hv⟩
    exact ⟨u, v ++ w, rfl, matches_anything .., v, w, rfl, by simpa using hv, matches_anything ..⟩

end Pattern

end Formwork.Text
