import Formwork.Config.Environment
import Mathlib.Data.List.Induction
import Mathlib.Data.List.Nodup

/-!
# Which source answers for a key

- **One more source** (`pairwise_place`, `find?_place_eq_some_iff`): it comes behind the sources
  that are asked before it. It answers if all others that have the key have a smaller priority, and
  otherwise the one answers that did before.
- **All sources** (`find?_registered_eq_some_iff`): the source that answers is the one that leads,
  which is said without the order in which sources are asked (`Leads`).
- **Answers** (`get?_registered`): the value of a key is that of the source that leads. With
  different priorities, the order in which the sources were added does not matter
  (`leads_iff_of_nodup`).
-/

namespace Formwork

/-- Whether the source has a value for a key. -/
def PropertySource.has (s : PropertySource) (key : String) : Bool := (s.get? key).isSome

namespace Environment

variable {l ss : List PropertySource} {s t : PropertySource} {key : String}

/-! ## One more source -/

theorem mem_place_iff : t ∈ place s l ↔ t = s ∨ t ∈ l := by
  induction l with
  | nil => simp [place]
  | cons u rest ih =>
    unfold place
    split
    · exact List.mem_cons
    · rw [List.mem_cons, ih, List.mem_cons]
      exact or_left_comm

/-- A source that is added keeps the descending order of the priorities. -/
theorem pairwise_place (h : l.Pairwise fun s t => t.priority ≤ s.priority) :
    (place s l).Pairwise fun s t => t.priority ≤ s.priority := by
  induction l with
  | nil => exact List.pairwise_singleton ..
  | cons u rest ih =>
    obtain ⟨hu, hrest⟩ := List.pairwise_cons.mp h
    unfold place
    split
    · next hlt =>
      refine List.pairwise_cons.mpr ⟨fun t ht => ?_, h⟩
      rcases List.mem_cons.mp ht with rfl | ht
      · omega
      · have hle := hu t ht
        omega
    · next hge =>
      refine List.pairwise_cons.mpr ⟨fun t ht => ?_, ih hrest⟩
      rcases mem_place_iff.mp ht with rfl | ht
      · omega
      · exact hu t ht

/-- Of the sources that have a key, a new one is asked first if its priority is greater than that of
all others. If it is not, the same source is asked first as before. -/
theorem find?_place_eq_some_iff (h : l.Pairwise fun s t => t.priority ≤ s.priority) :
    (place s l).find? (·.has key) = some t ↔
      (t = s ∧ s.has key = true ∧ ∀ u ∈ l, u.has key = true → u.priority < s.priority) ∨
        (l.find? (·.has key) = some t ∧ (s.has key = true → s.priority ≤ t.priority)) := by
  induction l with
  | nil =>
    by_cases hs : s.has key = true
    · simp [place, hs, eq_comm (a := t)]
    · simp [place, hs]
  | cons u rest ih =>
    obtain ⟨hu, hrest⟩ := List.pairwise_cons.mp h
    unfold place
    split
    · next hlt =>
      -- All sources have a smaller priority than the new one.
      have hall : ∀ v ∈ u :: rest, v.priority < s.priority := by
        intro v hv
        rcases List.mem_cons.mp hv with rfl | hv
        · exact hlt
        · have hle := hu v hv
          omega
      by_cases hs : s.has key = true
      · rw [List.find?_cons_of_pos (by exact hs)]
        constructor
        · intro ht
          cases ht
          exact .inl ⟨rfl, hs, fun v hv _ => hall v hv⟩
        · rintro (⟨rfl, -, -⟩ | ⟨ht, hle⟩)
          · rfl
          · have hlt := hall t (List.mem_of_find?_eq_some ht)
            have hle := hle hs
            omega
      · rw [List.find?_cons_of_neg (by exact hs)]
        simp [hs]
    · next hge =>
      by_cases huk : u.has key = true
      · rw [List.find?_cons_of_pos (by exact huk), List.find?_cons_of_pos (by exact huk)]
        constructor
        · intro ht
          cases ht
          exact .inr ⟨rfl, fun _ => by omega⟩
        · rintro (⟨-, -, hlt⟩ | ⟨ht, -⟩)
          · exact absurd (hlt u (List.mem_cons_self ..) huk) hge
          · exact ht
      · rw [List.find?_cons_of_neg (by exact huk), List.find?_cons_of_neg (by exact huk), ih hrest]
        simp [huk]

/-! ## All sources -/

/-- The environment after sources were added to it, one after the other. -/
def registered (ss : List PropertySource) : Environment := ss.foldl add {}

theorem sources_registered_append (ss : List PropertySource) (s : PropertySource) :
    (registered (ss ++ [s])).sources = place s (registered ss).sources := by
  unfold registered
  rw [List.foldl_append]
  rfl

theorem mem_sources_registered_iff : s ∈ (registered ss).sources ↔ s ∈ ss := by
  induction ss using List.reverseRecOn with
  | nil => simp [registered]
  | append_singleton ss t ih =>
    rw [sources_registered_append, mem_place_iff, ih, List.mem_append, List.mem_singleton]
    exact or_comm

theorem pairwise_registered (ss : List PropertySource) :
    (registered ss).sources.Pairwise fun s t => t.priority ≤ s.priority := by
  induction ss using List.reverseRecOn with
  | nil => exact .nil
  | append_singleton ss t ih =>
    rw [sources_registered_append]
    exact pairwise_place ih

/-- Of the sources that have a key, one leads: those that were added before it have a smaller
priority, and those that were added after it have no greater one. -/
structure Leads (ss : List PropertySource) (key : String) (s : PropertySource) : Prop where
  has : s.has key = true
  added : ∃ earlier later, ss = earlier ++ s :: later ∧
    (∀ t ∈ earlier, t.has key = true → t.priority < s.priority) ∧
    ∀ t ∈ later, t.has key = true → t.priority ≤ s.priority

theorem leads_append_singleton_iff :
    Leads (ss ++ [s]) key t ↔
      (t = s ∧ s.has key = true ∧ ∀ u ∈ ss, u.has key = true → u.priority < s.priority) ∨
        (Leads ss key t ∧ (s.has key = true → s.priority ≤ t.priority)) := by
  constructor
  · rintro ⟨hhas, earlier, later, happend, hearlier, hlater⟩
    cases later using List.reverseRecOn with
    | nil =>
      obtain ⟨rfl, hst⟩ := List.append_inj' happend rfl
      cases hst
      exact .inl ⟨rfl, hhas, hearlier⟩
    | append_singleton later u _ =>
      rw [← List.cons_append, ← List.append_assoc] at happend
      obtain ⟨rfl, hsu⟩ := List.append_inj' happend rfl
      cases hsu
      refine .inr ⟨⟨hhas, earlier, later, rfl, hearlier, fun u hu => ?_⟩, ?_⟩
      · exact hlater u (List.mem_append_left _ hu)
      · exact hlater s (List.mem_append_right _ (List.mem_singleton_self s))
  · rintro (⟨rfl, hhas, hall⟩ | ⟨⟨hhas, earlier, later, rfl, hearlier, hlater⟩, hle⟩)
    · exact ⟨hhas, ss, [], rfl, hall, fun u hu => absurd hu List.not_mem_nil⟩
    · refine ⟨hhas, earlier, later ++ [s], by simp, hearlier, fun u hu => ?_⟩
      rcases List.mem_append.mp hu with hu | hu
      · exact hlater u hu
      · exact List.mem_singleton.mp hu ▸ fun hs => hle hs

/-- The first of the sources that have a key is the one that leads. -/
theorem find?_registered_eq_some_iff :
    (registered ss).sources.find? (·.has key) = some s ↔ Leads ss key s := by
  induction ss using List.reverseRecOn generalizing s with
  | nil =>
    constructor
    · intro h
      cases h
    · rintro ⟨-, earlier, later, happend, -, -⟩
      simp at happend
  | append_singleton ss t ih =>
    rw [sources_registered_append, find?_place_eq_some_iff (pairwise_registered ss),
      leads_append_singleton_iff, ih]
    simp only [mem_sources_registered_iff]

/-- With different priorities, a source leads by its priority alone. -/
theorem leads_iff_of_nodup (hn : (ss.map (·.priority)).Nodup) :
    Leads ss key s ↔
      s ∈ ss ∧ s.has key = true ∧ ∀ t ∈ ss, t.has key = true → t.priority ≤ s.priority := by
  constructor
  · rintro ⟨hhas, earlier, later, rfl, hearlier, hlater⟩
    refine ⟨by simp, hhas, fun t ht hkey => ?_⟩
    rcases List.mem_append.mp ht with ht | ht
    · exact Int.le_of_lt (hearlier t ht hkey)
    · rcases List.mem_cons.mp ht with rfl | ht
      · exact Int.le_refl _
      · exact hlater t ht hkey
  · rintro ⟨hs, hhas, hall⟩
    obtain ⟨earlier, later, rfl⟩ := List.append_of_mem hs
    refine ⟨hhas, earlier, later, rfl, fun t ht hkey => ?_, fun t ht => ?_⟩
    · have hle := hall t (List.mem_append_left _ ht) hkey
      have hne : t.priority ≠ s.priority := by
        rw [List.map_append, List.nodup_append] at hn
        exact hn.2.2 _ (List.mem_map_of_mem ht) _ (List.mem_cons_self ..)
      omega
    · exact hall t (List.mem_append_right _ (List.mem_cons_of_mem _ ht))

/-! ## Answers -/

theorem get?_eq_bind (e : Environment) (key : String) :
    e.get? key = (e.sources.find? (·.has key)).bind (·.get? key) := by
  unfold get?
  induction e.sources with
  | nil => rfl
  | cons s rest ih =>
    cases hs : s.get? key with
    | none => simp [PropertySource.has, hs, ih]
    | some v => simp [PropertySource.has, hs]

theorem get?_eq_some_iff {v : ConfigValue} :
    (registered ss).get? key = some v ↔ ∃ s, Leads ss key s ∧ s.get? key = some v := by
  rw [get?_eq_bind, Option.bind_eq_some_iff]
  simp only [find?_registered_eq_some_iff]

/-- **The value of a key is that of the source that leads**, the first one added of those with the
greatest priority that have the key. There is none iff no source has the key. With different
priorities, sources that are added in another order give the same value. -/
theorem get?_registered (ss : List PropertySource) (key : String) :
    (∀ v, (registered ss).get? key = some v ↔ ∃ s, Leads ss key s ∧ s.get? key = some v) ∧
    ((registered ss).get? key = none ↔ ∀ s ∈ ss, s.get? key = none) ∧
    ∀ others, ss.Perm others → (ss.map (·.priority)).Nodup →
      (registered others).get? key = (registered ss).get? key := by
  refine ⟨fun v => get?_eq_some_iff, ?_, fun others hp hn => ?_⟩
  · unfold get?
    rw [List.findSome?_eq_none_iff]
    simp only [mem_sources_registered_iff]
  · have hn' : (others.map (·.priority)).Nodup := (hp.map _).nodup_iff.mp hn
    have hleads : ∀ s, Leads others key s ↔ Leads ss key s := fun s => by
      rw [leads_iff_of_nodup hn, leads_iff_of_nodup hn']
      simp only [hp.mem_iff]
    refine Option.ext fun v => ?_
    rw [get?_eq_some_iff, get?_eq_some_iff]
    simp only [hleads]

/-- A source with a port and a host. -/
def defaults : PropertySource :=
  .ofMap "defaults" (.ofList [("server.host", .text "localhost"), ("server.port", .integer 8080)]) 1

/-- A source with another port, which is asked first. -/
def overrides : PropertySource := .ofMap "overrides" (.ofList [("server.port", .text "9090")]) 10

/-- Two sources give the port of the one with the greater priority, in whatever order they were
added, and the host of the one that has it. -/
theorem get?_registered_defaults :
    [defaults, overrides].Perm [overrides, defaults] ∧
    ([defaults, overrides].map (·.priority)).Nodup ∧
    (registered [overrides, defaults]).get? "server.port" =
      (registered [defaults, overrides]).get? "server.port" ∧
    (registered [defaults, overrides]).get? "server.port" = some (.text "9090") ∧
    (registered [defaults, overrides]).get? "server.host" = some (.text "localhost") := by
  have hperm : [defaults, overrides].Perm [overrides, defaults] := .swap ..
  have hnodup : ([defaults, overrides].map (·.priority)).Nodup := by decide
  have hport := get?_registered [defaults, overrides] "server.port"
  have hhost := get?_registered [defaults, overrides] "server.host"
  refine ⟨hperm, hnodup, hport.2.2 _ hperm hnodup, ?_, ?_⟩
  · refine (hport.1 _).mpr ⟨overrides, (leads_iff_of_nodup hnodup).mpr ⟨by simp, rfl, ?_⟩, rfl⟩
    simp [defaults, overrides, PropertySource.ofMap]
  · refine (hhost.1 _).mpr ⟨defaults, ⟨rfl, [], [overrides], rfl, by simp, ?_⟩, rfl⟩
    intro t ht
    rw [List.mem_singleton.mp ht]
    decide

end Environment

end Formwork
