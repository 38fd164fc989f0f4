import Mathlib.Data.List.Forall2

/-!
# Computations that may fail

What is known of the parts when a computation made of them succeeds (`bind_eq_ok`,
`mapM_eq_ok_iff`), and where a fold stopped when it failed (`foldlM_eq_error`).
-/

namespace Formwork

variable {α β ε : Type}

theorem bind_eq_ok {x : Except ε α} {f : α → Except ε β} {b : β} :
    x >>= f = .ok b ↔ ∃ a, x = .ok a ∧ f a = .ok b := by
  cases x <;> simp [bind, Except.bind]

theorem bind_eq_error {x : Except ε α} {f : α → Except ε β} {e : ε} :
    x >>= f = .error e ↔ x = .error e ∨ ∃ a, x = .ok a ∧ f a = .error e := by
  cases x <;> simp [bind, Except.bind]

theorem map_eq_ok {x : Except ε α} {f : α → β} {b : β} :
    x.map f = .ok b ↔ ∃ a, x = .ok a ∧ f a = b := by
  cases x <;> simp [Except.map]

theorem map_eq_error {x : Except ε α} {f : α → β} {e : ε} :
    x.map f = .error e ↔ x = .error e := by
  cases x <;> simp [Except.map]

theorem mapM_eq_ok_iff {l : List α} {f : α → Except ε β} {parts : List β} :
    l.mapM f = .ok parts ↔ List.Forall₂ (fun a b => f a = .ok b) l parts := by
  induction l generalizing parts with
  | nil =>
    rw [List.forall₂_nil_left_iff, List.mapM_nil]
    exact ⟨fun h => (Except.ok.inj h).symm, fun h => congrArg Except.ok h.symm⟩
  | cons a l ih =>
    rw [List.mapM_cons, List.forall₂_cons_left_iff]
    constructor
    · intro h
      obtain ⟨b, hb, h⟩ := bind_eq_ok.mp h
      obtain ⟨more, hm, h⟩ := bind_eq_ok.mp h
      exact ⟨b, more, hb, ih.mp hm, (Except.ok.inj h).symm⟩
    · rintro ⟨b, more, hb, hm, rfl⟩
      exact bind_eq_ok.mpr ⟨b, hb, bind_eq_ok.mpr ⟨more, ih.mpr hm, rfl⟩⟩

theorem mapM_map_eq {γ : Type} {l : List α} {f : α → Except ε β} {g : β → γ} :
    (l.mapM fun a => (f a).map g) = (l.mapM f).map (List.map g) := by
  induction l with
  | nil => rfl
  | cons a l ih =>
    rw [List.mapM_cons, List.mapM_cons, ih]
    cases f a with
    | error e => rfl
    | ok b => cases l.mapM f <;> rfl

theorem length_of_mapM_eq_ok {l : List α} {f : α → Except ε β} {parts : List β}
    (h : l.mapM f = .ok parts) : parts.length = l.length :=
  (mapM_eq_ok_iff.mp h).length_eq.symm

theorem exists_of_mem_right {R : α → β → Prop} {l : List α} {m : List β} (h : List.Forall₂ R l m)
    {b : β} (hb : b ∈ m) : ∃ a ∈ l, R a b := by
  induction h with
  | nil => cases hb
  | @cons a b' l m hab _ ih =>
    rcases List.mem_cons.mp hb with rfl | hb
    · exact ⟨a, List.mem_cons_self .., hab⟩
    · obtain ⟨x, hx, hxb⟩ := ih hb
      exact ⟨x, List.mem_cons_of_mem _ hx, hxb⟩

theorem flatMap_eq_of_forall₂ {γ : Type} {R : α → β → Prop} {l : List α} {m : List β}
    (h : List.Forall₂ R l m) {f : α → List γ} {g : β → List γ} (hfg : ∀ a b, R a b → g b = f a) :
    m.flatMap g = l.flatMap f := by
  induction h with
  | nil => rfl
  | cons hab _ ih => rw [List.flatMap_cons, List.flatMap_cons, hfg _ _ hab, ih]

/-- What is found in a list is found in the elements that something is found in, one by one. -/
theorem forall₂_filterMap (f : α → Option β) (l : List α) :
    List.Forall₂ (fun a b => f a = some b) (l.filter fun a => (f a).isSome) (l.filterMap f) := by
  induction l with
  | nil => exact .nil
  | cons a l ih =>
    cases ha : f a with
    | none => simpa [ha] using ih
    | some b => simpa [ha] using ih

theorem exists_forall₂_iff {R : α → β → Prop} {m : List β} :
    (∃ l, List.Forall₂ R l m) ↔ ∀ b ∈ m, ∃ a, R a b := by
  constructor
  · rintro ⟨l, h⟩ b hb
    obtain ⟨a, -, hab⟩ := exists_of_mem_right h hb
    exact ⟨a, hab⟩
  · intro h
    induction m with
    | nil => exact ⟨[], .nil⟩
    | cons b m ih =>
      obtain ⟨⟨a, hab⟩, hm⟩ := List.forall_mem_cons.mp h
      obtain ⟨l, hl⟩ := ih hm
      exact ⟨a :: l, .cons hab hl⟩

/-- If what a relation relates elements to are the images of what another one relates them to, then
so it is with lists. -/
theorem forall₂_map_iff_exists {γ : Type} {R : α → γ → Prop} {S : α → β → Prop} {g : β → γ}
    {l : List α} {m : List γ} (h : ∀ a ∈ l, ∀ c, R a c ↔ ∃ b, c = g b ∧ S a b) :
    List.Forall₂ R l m ↔ ∃ bs, m = bs.map g ∧ List.Forall₂ S l bs := by
  induction l generalizing m with
  | nil => simp
  | cons a l ih =>
    obtain ⟨ha, hl⟩ := List.forall_mem_cons.mp h
    rw [List.forall₂_cons_left_iff]
    constructor
    · rintro ⟨c, m, hc, hm, rfl⟩
      obtain ⟨b, rfl, hb⟩ := (ha c).mp hc
      obtain ⟨bs, rfl, hbs⟩ := (ih hl).mp hm
      exact ⟨b :: bs, rfl, .cons hb hbs⟩
    · rintro ⟨bs, rfl, hbs⟩
      obtain ⟨b, more, hb, hmore, rfl⟩ := List.forall₂_cons_left_iff.mp hbs
      exact ⟨g b, more.map g, (ha _).mpr ⟨b, rfl, hb⟩, (ih hl).mpr ⟨more, rfl, hmore⟩, rfl⟩

theorem exists_mapM_eq_ok {l : List α} {f : α → Except ε β} (h : ∀ a ∈ l, ∃ b, f a = .ok b) :
    ∃ parts, l.mapM f = .ok parts := by
  obtain ⟨parts, hparts⟩ := exists_forall₂_iff.mpr h
  exact ⟨parts, mapM_eq_ok_iff.mpr hparts.flip⟩

theorem exists_of_mem_mapM {l : List α} {f : α → Except ε β} {parts : List β}
    (h : l.mapM f = .ok parts) {b : β} (hb : b ∈ parts) : ∃ a ∈ l, f a = .ok b :=
  exists_of_mem_right (mapM_eq_ok_iff.mp h) hb

theorem exists_of_mapM_eq_error {l : List α} {f : α → Except ε β} {e : ε}
    (h : l.mapM f = .error e) : ∃ a ∈ l, f a = .error e := by
  induction l with
  | nil => cases h
  | cons a l ih =>
    rw [List.mapM_cons] at h
    rcases bind_eq_error.mp h with ha | ⟨b, -, hmore⟩
    · exact ⟨a, List.mem_cons_self .., ha⟩
    · rcases bind_eq_error.mp hmore with hl | ⟨more, -, hpure⟩
      · obtain ⟨x, hx, hfx⟩ := ih hl
        exact ⟨x, List.mem_cons_of_mem _ hx, hfx⟩
      · cases hpure

/-- Elements that are read one by one may be read before any of them is used. -/
theorem foldlM_map_eq {γ : Type} {l : List α} {f : α → Except ε β} {g : γ → β → γ} {c : γ} :
    l.foldlM (fun c a => (f a).map (g c)) c = (l.mapM f).map (List.foldl g c) := by
  induction l generalizing c with
  | nil => rfl
  | cons a l ih =>
    rw [List.foldlM_cons, List.mapM_cons]
    cases f a with
    | error e => rfl
    | ok b =>
      refine (ih (c := g c b)).trans ?_
      cases l.mapM f <;> rfl

/-- A fold that fails does so at one element, after those in front of it succeeded. -/
theorem foldlM_eq_error {l : List α} {f : β → α → Except ε β} {b : β} {e : ε}
    (h : l.foldlM f b = .error e) : ∃ front a back c, l = front ++ a :: back ∧
      front.foldlM f b = .ok c ∧ f c a = .error e := by
  induction l generalizing b with
  | nil => cases h
  | cons a l ih =>
    rw [List.foldlM_cons] at h
    cases ha : f b a with
    | error e' =>
      rw [ha] at h
      exact ⟨[], a, l, b, rfl, rfl, ha.trans (congrArg Except.error (Except.error.inj h))⟩
    | ok next =>
      rw [ha] at h
      obtain ⟨front, x, back, c, rfl, hf, hx⟩ := ih h
      exact ⟨a :: front, x, back, c, rfl, by rw [List.foldlM_cons, ha]; exact hf, hx⟩

end Formwork
