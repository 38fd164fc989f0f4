import Formwork.NameMap

/-!
# Entries of maps with names as keys

The look-up of a name is its entry (`mem_entries_iff`), and the map of pairs with distinct names has
the pairs as its entries (`get?_ofList`). More generally, elements of a list that have distinct keys
are found by their keys (`filter_key_of_nodup`), and so is what is made of them
(`flatMap_eq_of_key`).
-/

namespace Formwork

section Keys

variable {α β κ : Type} [BEq κ] {key : α → κ} {l : List α}

/-- With distinct keys, there is one element with the key of an element. -/
theorem filter_key_of_nodup [LawfulBEq κ] (h : (l.map key).Nodup) {a : α} (ha : a ∈ l) :
    l.filter (key · == key a) = [a] := by
  induction l with
  | nil => cases ha
  | cons b l ih =>
    obtain ⟨hb, hl⟩ := List.nodup_cons.mp h
    rcases List.mem_cons.mp ha with rfl | ha
    · have hnone : l.filter (key · == key a) = [] := List.filter_eq_nil_iff.mpr
        fun c hc he => hb (List.mem_map.mpr ⟨c, hc, beq_iff_eq.mp he⟩)
      rw [List.filter_cons, hnone, if_pos (beq_self_eq_true _)]
    · have hne : ¬ (key b == key a) = true :=
        fun he => hb (List.mem_map.mpr ⟨a, ha, (beq_iff_eq.mp he).symm⟩)
      rw [List.filter_cons, ih hl ha, if_neg hne]

/-- What is made of elements with a key is found with those elements. -/
theorem filter_flatMap_key {make : α → List β} {madeKey : β → κ}
    (h : ∀ a ∈ l, ∀ b ∈ make a, madeKey b = key a) (k : κ) :
    (l.flatMap make).filter (madeKey · == k) = (l.filter (key · == k)).flatMap make := by
  induction l with
  | nil => rfl
  | cons a l ih =>
    obtain ⟨ha, hl⟩ := List.forall_mem_cons.mp h
    rw [List.flatMap_cons, List.filter_append, ih hl, List.filter_cons]
    split
    · next hk =>
      rw [List.flatMap_cons, List.filter_eq_self.mpr fun b hb => by rw [ha b hb]; exact hk]
    · next hk =>
      rw [List.filter_eq_nil_iff.mpr fun b hb => by rw [ha b hb]; exact hk, List.nil_append]

/-- With distinct keys, an element is found by its key. -/
theorem find?_key_eq_some_iff [LawfulBEq κ] (h : (l.map key).Nodup) {k : κ} {a : α} :
    l.find? (key · == k) = some a ↔ a ∈ l ∧ key a = k := by
  constructor
  · intro ha
    exact ⟨List.mem_of_find?_eq_some ha, by simpa using List.find?_some ha⟩
  · rintro ⟨ha, rfl⟩
    rw [← List.head?_filter, filter_key_of_nodup h ha, List.head?_cons]

/-- If nothing is made of elements but of those with one key, and keys are distinct, then all is
made of the element with that key. -/
theorem flatMap_eq_of_key [LawfulBEq κ] (hn : (l.map key).Nodup) {make : α → List β} {k : κ}
    (h : ∀ a ∈ l, make a ≠ [] → key a = k) :
    l.flatMap make = (l.find? (key · == k)).toList.flatMap make := by
  induction l with
  | nil => rfl
  | cons a l ih =>
    obtain ⟨ha, hl⟩ := List.forall_mem_cons.mp h
    obtain ⟨hnew, hrest⟩ := List.nodup_cons.mp hn
    by_cases hk : key a = k
    · have hnone : l.flatMap make = [] := by
        refine List.flatMap_eq_nil_iff.mpr fun b hb => Classical.byContradiction fun hne => ?_
        exact hnew (List.mem_map.mpr ⟨b, hb, (hl b hb hne).trans hk.symm⟩)
      rw [List.flatMap_cons, hnone, List.find?_cons_of_pos (by simpa using hk)]
      simp
    · have hnone : make a = [] := Classical.byContradiction fun hne => hk (ha hne)
      rw [List.flatMap_cons, hnone, List.nil_append, ih hrest hl,
        List.find?_cons_of_neg (by simpa using hk)]

end Keys

namespace NameMap

variable {α : Type}

theorem find_eq_some_iff {l : List (String × α)} (h : (l.map (·.1)).Nodup) {name : String}
    {v : α} : find name l = some v ↔ (name, v) ∈ l := by
  induction l with
  | nil => simp [find]
  | cons e rest ih =>
    obtain ⟨n, w⟩ := e
    obtain ⟨hn, hrest⟩ := List.nodup_cons.mp h
    rw [find, List.mem_cons]
    split
    · next he =>
      subst he
      have habsent : (n, v) ∉ rest := fun hm => hn (List.mem_map.mpr ⟨(n, v), hm, rfl⟩)
      simp only [Option.some.injEq, Prod.mk.injEq, true_and, habsent, or_false]
      exact eq_comm
    · next hne =>
      rw [ih hrest]
      simp [Ne.symm hne]

theorem nodup_names (m : NameMap α) : m.names.Nodup := by
  unfold names
  rw [List.nodup_iff_pairwise_ne, List.pairwise_map]
  refine m.ascending.imp ?_
  intro a b hlt he
  rw [he] at hlt
  exact String.lt_irrefl _ hlt

theorem mem_entries_iff {m : NameMap α} {name : String} {v : α} :
    (name, v) ∈ m.entries ↔ m.get? name = some v := (find_eq_some_iff m.nodup_names).symm

theorem mem_names_iff {m : NameMap α} {name : String} :
    name ∈ m.names ↔ (m.get? name).isSome = true := by
  rw [Option.isSome_iff_exists, names, List.mem_map]
  constructor
  · rintro ⟨⟨n, v⟩, hm, rfl⟩
    exact ⟨v, mem_entries_iff.mp hm⟩
  · rintro ⟨v, hv⟩
    exact ⟨(name, v), mem_entries_iff.mpr hv, rfl⟩

theorem find_append (name : String) (l m : List (String × α)) :
    find name (l ++ m) = (find name l).or (find name m) := by
  induction l with
  | nil => rfl
  | cons e rest ih =>
    obtain ⟨n, v⟩ := e
    rw [List.cons_append, find, find]
    split
    · rfl
    · exact ih

theorem find_eq_map_find? (name : String) (l : List (String × α)) :
    find name l = (l.find? (·.1 == name)).map (·.2) := by
  induction l with
  | nil => rfl
  | cons e rest ih =>
    obtain ⟨n, v⟩ := e
    by_cases hn : n = name
    · rw [find, if_pos hn, List.find?_cons_of_pos (by simpa using hn), Option.map_some]
    · rw [find, if_neg hn, List.find?_cons_of_neg (by simpa using hn), ih]

theorem mem_of_find {name : String} {v : α} {l : List (String × α)}
    (h : find name l = some v) : (name, v) ∈ l := by
  rw [find_eq_map_find?, Option.map_eq_some_iff] at h
  obtain ⟨e, he, rfl⟩ := h
  have hname : e.1 = name := by simpa using List.find?_some he
  exact hname ▸ List.mem_of_find?_eq_some he

theorem isSome_find_iff {name : String} {l : List (String × α)} :
    (find name l).isSome = true ↔ ∃ e ∈ l, e.1 = name := by
  rw [find_eq_map_find?, Option.isSome_map, List.find?_isSome]
  simp only [beq_iff_eq]

theorem get?_foldl_insert (pairs : List (String × α)) (m : NameMap α) (name : String) :
    (pairs.foldl (fun m p => m.insert p.1 p.2) m).get? name =
      (find name pairs.reverse).or (m.get? name) := by
  induction pairs generalizing m with
  | nil => rfl
  | cons p rest ih =>
    rw [List.foldl_cons, ih, List.reverse_cons, find_append, get?_insert]
    cases find name rest.reverse with
    | some v => rfl
    | none => simp [find]; split <;> rfl

/-- The map of pairs that agree wherever they have the same name. -/
theorem get?_ofList_of_agree {pairs : List (String × α)}
    (h : ∀ p ∈ pairs, ∀ q ∈ pairs, p.1 = q.1 → p.2 = q.2) {name : String} {v : α} :
    (ofList pairs).get? name = some v ↔ (name, v) ∈ pairs := by
  unfold ofList
  rw [get?_foldl_insert, get?_empty, Option.or_none, ← List.mem_reverse]
  refine ⟨mem_of_find, fun hv => ?_⟩
  obtain ⟨w, hw⟩ := Option.isSome_iff_exists.mp (isSome_find_iff.mpr ⟨_, hv, rfl⟩)
  have hmem := List.mem_reverse.mp (mem_of_find hw)
  exact hw.trans (congrArg some (h _ hmem _ (List.mem_reverse.mp hv) rfl))

/-- The map of pairs with distinct names. -/
theorem get?_ofList {pairs : List (String × α)} (h : (pairs.map (·.1)).Nodup) {name : String}
    {v : α} : (ofList pairs).get? name = some v ↔ (name, v) ∈ pairs := by
  refine get?_ofList_of_agree fun p hp q hq hname => ?_
  have hfind : find p.1 pairs = some q.2 := (find_eq_some_iff h).mpr (hname ▸ hq)
  exact Option.some.inj (((find_eq_some_iff h).mpr hp).symm.trans hfind)

/-- The values behind the entries of a name are those of its look-up. -/
theorem flatMap_filter_entries (m : NameMap (List α)) (name : String) :
    (m.entries.filter (·.1 == name)).flatMap (·.2) = (m.get? name).getD [] := by
  cases hm : m.get? name with
  | some l =>
    have hone : m.entries.filter (·.1 == name) = [(name, l)] :=
      filter_key_of_nodup m.nodup_names (mem_entries_iff.mpr hm)
    rw [hone]
    simp
  | none =>
    rw [List.filter_eq_nil_iff.mpr]
    · rfl
    · rintro ⟨n, l⟩ hl hn
      obtain rfl : n = name := beq_iff_eq.mp hn
      rw [mem_entries_iff, hm] at hl
      cases hl

end NameMap

end Formwork
