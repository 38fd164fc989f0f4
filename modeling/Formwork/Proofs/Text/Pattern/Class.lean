import Formwork.Proofs.Text.Pattern.Escape

/-!
# Reading classes

A class works from left to right as a whole (`leftToRight_readClass`), though not item by item.

- **Named classes** (`readBasicClass_append`): whether one is there does not depend on a closing
  parenthesis behind the text, since no name has one.
- **The beginning** (`sameStart_openClass`): either it is the same, or nothing is left of the text.
- **Items** (`alike_readRangeEnd`): behind an item a hyphen is read according to what stands behind
  the hyphen. That can be beyond the parenthesis while the rest, from the hyphen on, is not. Such a
  class ends beyond the parenthesis (`readClassFrom_hyphen_suffix`).
- **The whole** (`alike_readClassFrom`): by induction on the fuel, with what follows each item.
-/

namespace Formwork.Text

variable {f : PatternFlags} {t u v : List Char}

open LeftToRight

/-! ## Named classes -/

theorem lookup_basicClasses_eq_none {name : List Char} (h : ')' ∈ name) :
    basicClasses.lookup (String.ofList name) = none := by
  have hnames : ∀ p ∈ basicClasses, ')' ∉ p.1.toList := by decide
  rw [List.lookup_eq_none_iff]
  rintro p hp
  rw [bne_iff_ne]
  intro hname
  exact hnames p hp (by simpa [← hname] using h)

theorem readClassName_append (u t : List Char) :
    readClassName (u ++ ')' :: t) = (readClassName u).map fun a => (a.1, a.2 ++ ')' :: t) := by
  unfold readClassName
  rcases readUntil_append ':' (by decide) u t with
    ⟨name, v, hnear, hfar⟩ | ⟨hnear, hfar⟩
  · rw [hnear, hfar]
    rcases v with - | ⟨c, v⟩
    · simp
    · by_cases hc : c = ']'
      · subst hc
        simp [Function.comp_def]
      · simp [hc]
  · rw [hnear]
    split
    · next name v hread =>
      rw [lookup_basicClasses_eq_none (hfar _ hread).1]
      rfl
    · rfl

theorem readClassName_suffix {a : List (Char × Char) × List Char} (h : readClassName u = some a) :
    a.2 <:+ u := by
  unfold readClassName at h
  split at h
  · next name v hname =>
    obtain ⟨t, -, rfl⟩ := Option.map_eq_some_iff.mp h
    exact (List.suffix_cons _ v).trans (readUntil_suffix hname)
  · cases h

theorem readBasicClass_append (f : PatternFlags) (u t : List Char) :
    readBasicClass f (u ++ ')' :: t) =
      (readBasicClass f u).map fun a => (a.1, a.2 ++ ')' :: t) := by
  rcases u with - | ⟨c, - | ⟨d, u⟩⟩
  · rfl
  · by_cases hc : c = ':'
    · subst hc
      show (readClassName ([] ++ ')' :: t)).map _ = _
      rw [readClassName_append]
      rfl
    · simp [readBasicClass, hc]
  · by_cases hc : c = ':'
    · by_cases hd : d = '^'
      · subst hc hd
        show (readClassName (u ++ ')' :: t)).map _ = ((readClassName u).map _).map _
        rw [readClassName_append, Option.map_map, Option.map_map]
        rfl
      · subst hc
        have happend := readClassName_append (d :: u) t
        simp only [List.cons_append] at happend
        simp [readBasicClass, hd, happend, Function.comp_def]
    · simp [readBasicClass, hc]

theorem readBasicClass_suffix {a : CharSet × List Char} (h : readBasicClass f u = some a) :
    a.2 <:+ u := by
  unfold readBasicClass at h
  split at h
  · next rest =>
    obtain ⟨b, hb, rfl⟩ := Option.map_eq_some_iff.mp h
    exact (readClassName_suffix hb).trans ⟨[':', '^'], rfl⟩
  · next rest _ =>
    obtain ⟨b, hb, rfl⟩ := Option.map_eq_some_iff.mp h
    exact (readClassName_suffix hb).trans ⟨[':'], rfl⟩
  · cases h

/-! ## The beginning of a class -/

theorem readHyphens_suffix (f : PatternFlags) (k : OpenClass) (n : Nat) (u : List Char) :
    (readHyphens f k n u).2 <:+ u := by
  induction n generalizing k u with
  | zero => exact List.suffix_rfl
  | succ n ih =>
    unfold readHyphens
    split
    · next n rest hfuel =>
      obtain rfl := Nat.succ.inj hfuel
      exact ((ih _ _).trans (f.skip_suffix _)).trans (List.suffix_cons _ _)
    · exact List.suffix_rfl

theorem readHyphens_nil (f : PatternFlags) (k : OpenClass) (n : Nat) :
    readHyphens f k n [] = (k, []) := by
  cases n <;> rfl

theorem readHyphens_cons_of_ne (f : PatternFlags) (k : OpenClass) (n : Nat) {c : Char}
    (h : c ≠ '-') (u : List Char) : readHyphens f k n (c :: u) = (k, c :: u) := by
  cases n with
  | zero => rfl
  | succ n => simp [readHyphens, h]

/-- What the beginning of a class comes to for a text (`near`), and with a closing parenthesis and
`t` behind it (`far`): the same, or nothing is left of the text. -/
def SameStart (t : List Char) (near far : OpenClass × List Char) : Prop :=
  far = (near.1, near.2 ++ ')' :: t) ∨ (near.2 = [] ∧ far.2 <:+ t)

theorem sameStart_readHyphens (f : PatternFlags) {k : OpenClass} {m n : Nat}
    (hm : u.length ≤ m) (hn : u.length ≤ n) :
    SameStart t (readHyphens f k m u) (readHyphens f k n (u ++ ')' :: t)) := by
  induction m generalizing k n u with
  | zero =>
    obtain rfl := List.length_eq_zero_iff.mp (Nat.le_zero.mp hm)
    exact .inl (readHyphens_cons_of_ne f k n (by decide) t)
  | succ m ih =>
    rcases u with - | ⟨c, u⟩
    · rw [readHyphens_nil, List.nil_append, readHyphens_cons_of_ne f k n (by decide) t]
      exact .inl rfl
    · by_cases hc : c = '-'
      · have hlen := (f.skip_suffix u).length_le
        rw [List.length_cons] at hm hn
        obtain ⟨n, rfl⟩ : ∃ l, n = l + 1 := ⟨n - 1, by omega⟩
        subst hc
        simp only [List.cons_append, readHyphens]
        rcases f.skip_append u with hskip | ⟨hskip, hopen⟩
        · rw [hskip]
          exact ih (by omega) (by omega)
        · rw [hskip, hopen, readHyphens_nil]
          exact .inr ⟨rfl, (readHyphens_suffix ..).trans (dropComments_suffix true t)⟩
      · rw [List.cons_append, readHyphens_cons_of_ne f k _ hc, readHyphens_cons_of_ne f k _ hc]
        exact .inl rfl

theorem readFirst_suffix (f : PatternFlags) (k : OpenClass) (u : List Char) :
    (readFirst f k u).2 <:+ u := by
  unfold readFirst
  split
  · exact (f.skip_suffix _).trans (List.suffix_cons _ _)
  · exact readHyphens_suffix ..

theorem readSign_suffix (f : PatternFlags) (u : List Char) : (readSign f u).2 <:+ u := by
  unfold readSign
  split
  · exact (readFirst_suffix ..).trans ((f.skip_suffix _).trans (List.suffix_cons _ _))
  · exact readFirst_suffix ..

theorem openClass_suffix (f : PatternFlags) (u : List Char) : (openClass f u).2 <:+ u :=
  (readSign_suffix f _).trans (f.skip_suffix u)

/-- Blanks and comments in front of a beginning make no difference. -/
theorem sameStart_skip (start : List Char → OpenClass × List Char)
    (hsuffix : ∀ u, (start u).2 <:+ u)
    (hsame : ∀ u t, SameStart t (start u) (start (u ++ ')' :: t))) (f : PatternFlags)
    (u t : List Char) : SameStart t (start (f.skip u)) (start (f.skip (u ++ ')' :: t))) := by
  rcases f.skip_append u with hskip | ⟨hskip, hopen⟩
  · rw [hskip]
    exact hsame _ t
  · rw [hskip, hopen]
    exact .inr ⟨List.suffix_nil.mp (hsuffix []), (hsuffix _).trans (dropComments_suffix true t)⟩

theorem sameStart_readFirst (f : PatternFlags) (k : OpenClass) (u t : List Char) :
    SameStart t (readFirst f k u) (readFirst f k (u ++ ')' :: t)) := by
  rcases u with - | ⟨c, u⟩
  · exact sameStart_readHyphens f (Nat.le_refl _) (Nat.zero_le _)
  · by_cases hc : c = ']'
    · subst hc
      exact sameStart_skip (fun w => (k.add (.single ']'), w))
        (fun _ => List.suffix_rfl) (fun _ _ => .inl rfl) f u t
    · have hfirst : ∀ w, readFirst f k (c :: w) = readHyphens f k (c :: w).length (c :: w) := by
        intro w
        simp [readFirst, hc]
      rw [List.cons_append, hfirst, hfirst]
      exact sameStart_readHyphens f (u := c :: u) (Nat.le_refl _) (by simp)

theorem sameStart_readSign (f : PatternFlags) (u t : List Char) :
    SameStart t (readSign f u) (readSign f (u ++ ')' :: t)) := by
  rcases u with - | ⟨c, u⟩
  · exact sameStart_readFirst f _ [] t
  · by_cases hc : c = '^'
    · subst hc
      exact sameStart_skip _ (readFirst_suffix f _) (sameStart_readFirst f _) f u t
    · have hsign : ∀ w, readSign f (c :: w) = readFirst f { negated := false } (c :: w) := by
        intro w
        simp [readSign, hc]
      rw [List.cons_append, hsign, hsign]
      exact sameStart_readFirst f _ (c :: u) t

theorem sameStart_openClass (f : PatternFlags) (u t : List Char) :
    SameStart t (openClass f u) (openClass f (u ++ ')' :: t)) :=
  sameStart_skip _ (readSign_suffix f) (sameStart_readSign f) f u t

/-! ## Items and operators -/

theorem leftToRight_readClassItem_cons (f : PatternFlags) (c : Char) :
    LeftToRight fun u => readClassItem f (c :: u) :=
  ((leftToRight_readEscape f).bind fun e => const (e.classItem? f)).ite
    (const ((PatternEscape.literal c).classItem? f))

theorem leftToRight_readClassItem (f : PatternFlags) : LeftToRight (readClassItem f) :=
  of_cons rfl (leftToRight_readClassItem_cons f)

theorem readRangeEnd_suffix {low : ClassItem} {a : CharSet × List Char}
    (h : readRangeEnd f low u = some a) : a.2 <:+ u := by
  unfold readRangeEnd at h
  split at h
  · next rest =>
    split at h
    · cases h
    · next c after hskip =>
      split at h
      · obtain rfl := Option.some.inj h
        exact List.suffix_rfl
      · obtain ⟨b, hb, ha⟩ := Option.bind_eq_some_iff.mp h
        obtain ⟨s, -, rfl⟩ := Option.map_eq_some_iff.mp ha
        have hitem := (leftToRight_readClassItem f).suffix hb
        exact (hitem.trans (hskip ▸ f.skip_suffix rest)).trans (List.suffix_cons _ rest)
  · obtain rfl := Option.some.inj h
    exact List.suffix_rfl

theorem readClassRange_suffix {c : Char} {a : CharSet × List Char}
    (h : readClassRange f (c :: u) = some a) : a.2 <:+ u := by
  obtain ⟨b, hb, ha⟩ := Option.bind_eq_some_iff.mp h
  exact (readRangeEnd_suffix ha).trans
    ((f.skip_suffix _).trans ((leftToRight_readClassItem_cons f c).suffix hb))

theorem readOperator_append (c : Char) (u t : List Char) :
    readOperator (c :: u ++ ')' :: t) =
      (readOperator (c :: u)).map fun a => (a.1, a.2 ++ ')' :: t) := by
  rcases u with - | ⟨d, u⟩
  · show (if c = ')' then _ else none) = none
    split
    · next hc => rw [hc]; rfl
    · rfl
  · show (if c = d then _ else none) = Option.map _ (if c = d then _ else none)
    split
    · rw [Option.map_map]
      rfl
    · rfl

theorem readOperator_suffix {c : Char} {a : SetOperation × List Char}
    (h : readOperator (c :: u) = some a) : a.2 <:+ u := by
  rcases u with - | ⟨d, u⟩
  · cases h
  · change (if c = d then _ else none) = some a at h
    split at h
    · obtain ⟨op, -, rfl⟩ := Option.map_eq_some_iff.mp h
      exact List.suffix_cons d u
    · cases h

/-- Behind an item of a class the two texts lead to the same, or without the parenthesis the class
cannot end, and with it the reader stops at a hyphen whose end is beyond the parenthesis. -/
theorem alike_readRangeEnd (f : PatternFlags) (low : ClassItem) (u t : List Char) :
    Alike t (readRangeEnd f low u) (readRangeEnd f low (u ++ ')' :: t)) ∨
      (readRangeEnd f low u = none ∧ ∃ z, u = '-' :: z ∧ f.skip (z ++ ')' :: t) <:+ t ∧
        readRangeEnd f low (u ++ ')' :: t) = some (low.toSet, u ++ ')' :: t)) := by
  rcases u with - | ⟨c, u⟩
  · exact .inl (.same _ [])
  by_cases hc : c = '-'
  · have hhigh := (leftToRight_readClassItem f).bind fun high => const (low.range? high)
    subst hc
    simp only [List.cons_append, readRangeEnd]
    rcases f.skip_append u with hskip | ⟨hskip, hopen⟩
    · rw [hskip]
      rcases f.skip u with - | ⟨c, v⟩
      · exact .inl (hhigh.alike [] t)
      · simp only [List.cons_append]
        split
        · exact .inl (.same _ ('-' :: u))
        · exact .inl (hhigh.alike (c :: v) t)
    · have hbeyond : f.skip (u ++ ')' :: t) <:+ t := hopen t ▸ dropComments_suffix true t
      rw [hskip]
      generalize hw : f.skip (u ++ ')' :: t) = w at hbeyond
      rcases w with - | ⟨c, w⟩
      · exact .inl (.beyond (.inl rfl) (by simp))
      · simp only
        split
        · -- the character behind the hyphen is beyond the parenthesis, but is only looked at
          exact .inr ⟨trivial, u, rfl, hw ▸ hbeyond, rfl⟩
        · exact .inl (.beyond (.inl rfl) fun a ha => (hhigh.suffix ha).trans hbeyond)
  · have hend : ∀ w, readRangeEnd f low (c :: w) = some (low.toSet, c :: w) := by
      intro w
      simp [readRangeEnd, hc]
    rw [List.cons_append, hend, hend]
    exact .inl (.same _ (c :: u))

/-! ## Whole classes -/

theorem readClassFrom_of_skip_eq_nil {n : Nat} {outer : List OpenClass} {k : OpenClass}
    (h : f.skip u = []) : readClassFrom f n outer k u = none := by
  cases n with
  | zero => rfl
  | succ n => rw [readClassFrom, h]

theorem readClassFrom_suffix {n : Nat} {outer : List OpenClass} {k : OpenClass}
    {a : CharSet × List Char} (h : readClassFrom f n outer k u = some a) : a.2 <:+ f.skip u := by
  induction n generalizing outer k u with
  | zero => cases h
  | succ n ih =>
    have hdeep : ∀ {v outer k}, v <:+ f.skip u → readClassFrom f n outer k v = some a →
        a.2 <:+ f.skip u := fun hv h => (ih h).trans ((f.skip_suffix _).trans hv)
    rw [readClassFrom] at h
    generalize f.skip u = w at h hdeep ⊢
    split at h
    · cases h
    · next c rest =>
      have hrest : rest <:+ c :: rest := List.suffix_cons c rest
      split at h
      · split at h
        · next s v hbasic => exact hdeep ((readBasicClass_suffix hbasic).trans hrest) h
        · exact hdeep ((openClass_suffix f rest).trans hrest) h
      · split at h
        · obtain ⟨s, hclose, h⟩ := Option.bind_eq_some_iff.mp h
          split at h
          · obtain rfl := Option.some.inj h
            exact hrest
          · exact hdeep hrest h
        · split at h
          · next op v hop => exact hdeep ((readOperator_suffix hop).trans hrest) h
          · obtain ⟨b, hb, h⟩ := Option.bind_eq_some_iff.mp h
            exact hdeep ((readClassRange_suffix hb).trans hrest) h

theorem readClassFrom_suffix_of_suffix {n : Nat} {outer : List OpenClass} {k : OpenClass}
    {a : CharSet × List Char} (hu : u <:+ t) (h : readClassFrom f n outer k u = some a) :
    a.2 <:+ t :=
  (readClassFrom_suffix h).trans ((f.skip_suffix u).trans hu)

/-- A class whose next item or operator ends beyond a place ends beyond that place, too. -/
theorem readClassFrom_suffix_of_item {n : Nat} {outer : List OpenClass} {k : OpenClass} {c : Char}
    {a : CharSet × List Char} (hskip : f.skip u = c :: v) (hopen : c ≠ '[') (hclose : c ≠ ']')
    (hitem : ∀ a, readClassItem f (c :: v) = some a → f.skip a.2 <:+ t)
    (hop : ∀ a, readOperator (c :: v) = some a → f.skip a.2 <:+ t)
    (h : readClassFrom f n outer k u = some a) : a.2 <:+ t := by
  cases n with
  | zero => cases h
  | succ n =>
    rw [readClassFrom, hskip] at h
    simp only [if_neg hopen, if_neg hclose] at h
    split at h
    · next op w hread => exact (readClassFrom_suffix h).trans (hop _ hread)
    · obtain ⟨b, hb, h⟩ := Option.bind_eq_some_iff.mp h
      obtain ⟨item, hread, hend⟩ := Option.bind_eq_some_iff.mp hb
      have hb : b.2 <:+ t := (readRangeEnd_suffix hend).trans (hitem _ hread)
      exact readClassFrom_suffix_of_suffix hb h

/-- A class that has not ended ends beyond the parenthesis. -/
theorem readClassFrom_close_suffix {n : Nat} {outer : List OpenClass} {k : OpenClass}
    {a : CharSet × List Char} (hskip : f.skip u = [])
    (h : readClassFrom f n outer k (u ++ ')' :: t) = some a) : a.2 <:+ t := by
  rcases f.skip_append u with hclose | ⟨-, hopen⟩
  · have hnext : f.skip (u ++ ')' :: t) = ')' :: t := by rw [hclose, hskip, List.nil_append]
    refine readClassFrom_suffix_of_item hnext (by decide) (by decide) (fun b hb => ?_)
      (fun b hb => ?_) h
    · exact (f.skip_suffix _).trans
        ((leftToRight_readClassItem f).suffix_of_eq_none (u := []) rfl hb)
    · have hnone : readOperator (')' :: t) = none := by
        rcases t with - | ⟨c, t⟩
        · rfl
        · show (if ')' = c then none else none) = none
          split <;> rfl
      rw [hnone] at hb
      cases hb
  · exact (readClassFrom_suffix h).trans (hopen t ▸ dropComments_suffix true t)

/-- A hyphen whose end is beyond a place is an item or belongs to an operator there. -/
theorem readClassFrom_hyphen_suffix {n : Nat} {outer : List OpenClass} {k : OpenClass}
    {z : List Char} {a : CharSet × List Char} (hz : f.skip z <:+ t)
    (h : readClassFrom f n outer k ('-' :: z) = some a) : a.2 <:+ t := by
  have hskip : ∀ w, f.skip ('-' :: w) = '-' :: w := by
    intro w
    unfold PatternFlags.skip
    split <;> rfl
  refine readClassFrom_suffix_of_item (hskip z) (by decide) (by decide) (fun b hb => ?_)
    (fun b hb => ?_) h
  · obtain ⟨item, -, rfl⟩ := Option.map_eq_some_iff.mp hb
    exact hz
  · rcases z with - | ⟨c, z⟩
    · cases hb
    · change (if '-' = c then _ else none) = some b at hb
      split at hb
      · next hc =>
        obtain ⟨op, -, rfl⟩ := Option.map_eq_some_iff.mp hb
        rw [← hc, hskip] at hz
        exact (f.skip_suffix z).trans ((List.suffix_cons _ z).trans hz)
      · cases hb

/-- Behind an item the class goes on alike if it does so from every end of the text. -/
theorem alike_readRangeEnd_bind (f : PatternFlags) (t : List Char) {item : ClassItem}
    {w : List Char} {m n : Nat} {outer : List OpenClass} {k : OpenClass}
    (hdeep : ∀ {v k}, v <:+ w →
      Alike t (readClassFrom f m outer k v) (readClassFrom f n outer k (v ++ ')' :: t))) :
    Alike t
      ((readRangeEnd f item (f.skip w)).bind fun a => readClassFrom f m outer (k.add a.1) a.2)
      ((readRangeEnd f item (f.skip (w ++ ')' :: t))).bind fun a =>
        readClassFrom f n outer (k.add a.1) a.2) := by
  rcases f.skip_append w with hskip | ⟨hskip, hopen⟩
  · rw [hskip]
    rcases alike_readRangeEnd f item (f.skip w) t with halike | ⟨hnone, z, hz, hbeyond, hhyphen⟩
    · refine halike.bind (fun s v hread => ?_) fun _ ha _ => readClassFrom_suffix_of_suffix ha
      exact hdeep ((readRangeEnd_suffix hread).trans (f.skip_suffix w))
    · rw [hnone, hhyphen, hz]
      exact .beyond (.inl rfl) fun a ha => readClassFrom_hyphen_suffix hbeyond ha
  · rw [hskip]
    refine .beyond (.inl (readClassFrom_of_skip_eq_nil f.skip_nil)) fun a ha => ?_
    obtain ⟨b, hb, ha⟩ := Option.bind_eq_some_iff.mp ha
    exact readClassFrom_suffix_of_suffix
      ((readRangeEnd_suffix hb).trans (hopen t ▸ dropComments_suffix true t)) ha

theorem alike_readClassRange_bind (f : PatternFlags) (t : List Char) {c : Char} {v : List Char}
    {m n : Nat} {outer : List OpenClass} {k : OpenClass}
    (hdeep : ∀ {w k}, w <:+ v →
      Alike t (readClassFrom f m outer k w) (readClassFrom f n outer k (w ++ ')' :: t))) :
    Alike t
      ((readClassRange f (c :: v)).bind fun a => readClassFrom f m outer (k.add a.1) a.2)
      ((readClassRange f (c :: (v ++ ')' :: t))).bind fun a =>
        readClassFrom f n outer (k.add a.1) a.2) := by
  have hitem := leftToRight_readClassItem_cons f c
  unfold readClassRange
  rw [Option.bind_assoc, Option.bind_assoc]
  refine (hitem.alike v t).bind (fun item w hread => ?_) fun a hbeyond b hb => ?_
  · have hw : w <:+ v := hitem.suffix hread
    exact alike_readRangeEnd_bind f t fun hv => hdeep (hv.trans hw)
  · obtain ⟨e, hend, hb⟩ := Option.bind_eq_some_iff.mp hb
    exact readClassFrom_suffix_of_suffix
      ((readRangeEnd_suffix hend).trans ((f.skip_suffix _).trans hbeyond)) hb

theorem alike_readClassFrom (f : PatternFlags) (t : List Char) {m n : Nat}
    {outer : List OpenClass} {k : OpenClass} {u : List Char} (hm : u.length < m)
    (hn : u.length < n) :
    Alike t (readClassFrom f m outer k u) (readClassFrom f n outer k (u ++ ')' :: t)) := by
  induction m generalizing n outer k u with
  | zero => cases hm
  | succ m ih =>
    obtain ⟨n, rfl⟩ : ∃ l, n = l + 1 := ⟨n - 1, by omega⟩
    rcases hnear : f.skip u with - | ⟨c, v⟩
    · exact .beyond (.inl (readClassFrom_of_skip_eq_nil hnear)) fun a =>
        readClassFrom_close_suffix hnear
    have hdeep : ∀ {w outer k}, w <:+ v →
        Alike t (readClassFrom f m outer k w) (readClassFrom f n outer k (w ++ ')' :: t)) := by
      intro w outer k hw
      have hwlen := hw.length_le
      have hlen := (f.skip_suffix u).length_le
      rw [hnear, List.length_cons] at hlen
      exact ih (by omega) (by omega)
    have hfar : f.skip (u ++ ')' :: t) = c :: v ++ ')' :: t := by
      rcases f.skip_append u with hskip | ⟨hskip, -⟩
      · rw [hskip, hnear]
      · rw [hnear] at hskip
        cases hskip
    rw [readClassFrom, readClassFrom, hnear, hfar]
    simp only [List.cons_append]
    split
    · rw [readBasicClass_append]
      rcases hbasic : readBasicClass f v with - | ⟨s, w⟩
      · rcases sameStart_openClass f v t with hsame | ⟨hnone, hbeyond⟩
        · simp only [Option.map_none, hsame]
          exact hdeep (openClass_suffix f v)
        · simp only [Option.map_none, hnone]
          exact .beyond (.inl (readClassFrom_of_skip_eq_nil f.skip_nil)) fun a =>
            readClassFrom_suffix_of_suffix hbeyond
      · exact hdeep (readBasicClass_suffix hbasic)
    · split
      · rcases k.close? f with - | s
        · exact .beyond (.inl rfl) (by simp)
        · rcases outer with - | ⟨around, outer⟩
          · exact .same s v
          · exact hdeep List.suffix_rfl
      · rw [← List.cons_append, readOperator_append]
        rcases hop : readOperator (c :: v) with - | ⟨op, w⟩
        · exact alike_readClassRange_bind f t hdeep
        · exact hdeep (readOperator_suffix hop)

theorem leftToRight_readClass (f : PatternFlags) : LeftToRight (readClass f) where
  suffix hread := readClassFrom_suffix_of_suffix (openClass_suffix f _) hread
  alike u t := by
    unfold readClass
    rcases sameStart_openClass f u t with hsame | ⟨hnone, hbeyond⟩
    · rw [hsame]
      refine alike_readClassFrom f t (Nat.lt_succ_self _) ?_
      simp only [List.length_append, List.length_cons]
      omega
    · rw [hnone]
      exact .beyond (.inl (readClassFrom_of_skip_eq_nil f.skip_nil)) fun a =>
        readClassFrom_suffix_of_suffix hbeyond

end Formwork.Text
