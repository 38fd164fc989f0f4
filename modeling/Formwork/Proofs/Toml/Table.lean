import Formwork.Proofs.NameMap
import Formwork.Toml.Document

/-!
# Tables of TOML documents

- **Values in tables** (`TomlValue.Below`): a value is below another one along the names of tables;
  the items of lists are below no value.
- **Ordered values** (`TomlValue.Ordered`): in each of the tables below a value, the names ascend,
  so no name comes twice.
- **Changes** (`KeepsOrder`): what puts a value or a table into a document that is being built
  leaves its tables in order, at whatever path (`keepsOrder_descend`).
- **Documents** (`ordered_of_parse?`): the tables of a document that was read are in order.
-/

namespace Formwork

namespace TomlValue

/-- A value is below another one at the end of a path of names. -/
inductive Below : TomlValue → List String → TomlValue → Prop
  | here {v : TomlValue} : Below v [] v
  | entry {entries : List (String × TomlValue)} {name : String} {path : List String}
      {v w : TomlValue} (hm : (name, v) ∈ entries) (hv : Below v path w) :
      Below (table entries) (name :: path) w

/-- The names in every table below a value ascend. -/
def Ordered (v : TomlValue) : Prop :=
  ∀ path entries, v.Below path (table entries) → entries.Pairwise fun a b => a.1 < b.1

/-- No table below a value has two entries with one name. -/
def Distinct (v : TomlValue) : Prop :=
  ∀ path entries, v.Below path (table entries) → (entries.map (·.1)).Nodup

variable {v : TomlValue} {entries : List (String × TomlValue)}

theorem Ordered.distinct (h : v.Ordered) : v.Distinct := fun path entries hbelow =>
  NameMap.nodup_names ⟨entries, h path entries hbelow⟩

theorem ordered_of_ne_table (h : ∀ entries, v ≠ table entries) : v.Ordered := by
  intro path entries hbelow
  cases hbelow with
  | here => exact absurd rfl (h entries)
  | entry hm hv => exact absurd rfl (h _)

theorem ordered_table_iff : (table entries).Ordered ↔
    (entries.Pairwise fun a b => a.1 < b.1) ∧ ∀ e ∈ entries, e.2.Ordered := by
  constructor
  · exact fun h => ⟨h [] entries .here,
      fun e he path inner hbelow => h (e.1 :: path) inner (.entry he hbelow)⟩
  · rintro ⟨hasc, hall⟩ path inner hbelow
    cases hbelow with
    | here => exact hasc
    | entry hm hv => exact hall _ hm _ _ hv

end TomlValue

namespace Toml

open TomlValue

variable {α : Type} {name : String} {es es' : Entries} {change : TableChange}

/-! ## Entries -/

theorem putEntry_eq_place (name : String) (v : α) (l : List (String × α)) :
    putEntry name v l = NameMap.place name (fun _ => v) l := by
  induction l with
  | nil => rfl
  | cons e rest ih =>
    obtain ⟨n, w⟩ := e
    rw [putEntry, NameMap.place, ih]
    split
    · rfl
    · split
      · next he => rw [he]
      · rfl

theorem mem_putEntry {v : α} {e : String × α} {l : List (String × α)}
    (h : e ∈ putEntry name v l) : e = (name, v) ∨ e ∈ l := by
  induction l with
  | nil => exact .inl (List.mem_singleton.mp h)
  | cons e' rest ih =>
    obtain ⟨n, w⟩ := e'
    rw [putEntry] at h
    split at h
    · exact List.mem_cons.mp h
    · split at h
      · exact (List.mem_cons.mp h).imp id (List.mem_cons_of_mem _)
      · rcases List.mem_cons.mp h with rfl | h
        · exact .inr (List.mem_cons_self ..)
        · exact (ih h).imp id (List.mem_cons_of_mem _)

theorem entryOf_eq_find (name : String) (l : List (String × α)) :
    entryOf name l = NameMap.find name l := by
  induction l with
  | nil => rfl
  | cons e rest ih =>
    obtain ⟨n, v⟩ := e
    rw [entryOf, NameMap.find, ih]

theorem mem_of_entryOf {v : α} {l : List (String × α)} (h : entryOf name l = some v) :
    (name, v) ∈ l :=
  NameMap.mem_of_find (entryOf_eq_find name l ▸ h)

theorem entryValues_eq_map (es : Entries) :
    entryValues es = es.map fun e => (e.1, e.2.toValue) := by
  induction es with
  | nil => rfl
  | cons e rest ih =>
    obtain ⟨n, node⟩ := e
    rw [entryValues, ih]
    rfl

/-! ## Changes of tables -/

/-- The table that entries make is in order, and so are the tables below it. -/
def InOrder (es : Entries) : Prop := (table (entryValues es)).Ordered

theorem inOrder_iff : InOrder es ↔
    (es.Pairwise fun a b => a.1 < b.1) ∧ ∀ e ∈ es, e.2.toValue.Ordered := by
  unfold InOrder
  rw [ordered_table_iff, entryValues_eq_map, List.pairwise_map]
  simp only [List.mem_map, forall_exists_index, and_imp, forall_apply_eq_imp_iff₂]

theorem inOrder_nil : InOrder [] := inOrder_iff.mpr ⟨.nil, by simp⟩

theorem InOrder.putEntry {node : Node} (h : InOrder es) (hn : node.toValue.Ordered) :
    InOrder (putEntry name node es) := by
  obtain ⟨hasc, hall⟩ := inOrder_iff.mp h
  refine inOrder_iff.mpr ⟨putEntry_eq_place name node es ▸ NameMap.place_ascending hasc, ?_⟩
  intro e he
  rcases mem_putEntry he with rfl | he
  · exact hn
  · exact hall e he

theorem ordered_table {origin : Origin} : (Node.table origin es).toValue.Ordered ↔ InOrder es := by
  rw [Node.toValue, InOrder]

theorem ordered_tables (items : List Entries) : (Node.tables items).toValue.Ordered :=
  ordered_of_ne_table fun _ h => by
    rw [Node.toValue] at h
    cases h

/-- A change that leaves tables in order. -/
def KeepsOrder (change : TableChange) : Prop :=
  ∀ origin es es', InOrder es → change origin es = some es' → InOrder es'

theorem keepsOrder_putValue {plain : Bool} {v : TomlValue} (hv : v.Ordered) :
    KeepsOrder (putValue plain name v) := by
  intro origin es es' hes h
  unfold putValue at h
  split at h
  · cases h
  · cases h
    exact hes.putEntry (by rwa [Node.toValue])

theorem keepsOrder_putTable : KeepsOrder (putTable name) := by
  intro origin es es' hes h
  unfold putTable at h
  split at h
  · cases h
    exact hes.putEntry (ordered_table.mpr inOrder_nil)
  · next inner hentry =>
    cases h
    exact hes.putEntry (ordered_table.mpr
      (ordered_table.mp ((inOrder_iff.mp hes).2 _ (mem_of_entryOf hentry))))
  · cases h

theorem keepsOrder_pushTable : KeepsOrder (pushTable name) := by
  intro origin es es' hes h
  unfold pushTable at h
  split at h
  · cases h
    exact hes.putEntry (ordered_tables _)
  · cases h
    exact hes.putEntry (ordered_tables _)
  · cases h

/-- What is changed at the end of a path keeps the order along the path. -/
theorem keepsOrder_descend {dotted : Bool} (hc : KeepsOrder change) (path : List String) :
    KeepsOrder (descend dotted change path) := by
  induction path with
  | nil =>
    intro origin es es' hes h
    exact hc origin es es' hes h
  | cons name path ih =>
    intro origin es es' hes h
    rw [descend] at h
    split at h
    · obtain ⟨inner, hinner, rfl⟩ := Option.map_eq_some_iff.mp h
      exact hes.putEntry (ordered_table.mpr (ih _ _ _ inOrder_nil hinner))
    · next origin' inner hentry =>
      split at h
      · cases h
      · obtain ⟨changed, hchanged, rfl⟩ := Option.map_eq_some_iff.mp h
        have hinner := (inOrder_iff.mp hes).2 _ (mem_of_entryOf hentry)
        exact hes.putEntry (ordered_table.mpr (ih _ _ _ (ordered_table.mp hinner) hchanged))
    · obtain ⟨changed, -, rfl⟩ := Option.map_eq_some_iff.mp h
      exact hes.putEntry (ordered_tables _)
    · cases h
    · cases h

theorem keepsOrder_putDotted {path : List String} {v : TomlValue} (hv : v.Ordered) :
    KeepsOrder (putDotted path v) := by
  intro origin es es' hes h
  unfold putDotted at h
  split at h
  · exact keepsOrder_descend (keepsOrder_putValue hv) _ origin es es' hes h
  · cases h

/-! ## Values and documents -/

/-- What every step of a fold keeps holds of its result. -/
theorem foldlM_invariant {β γ : Type} {P : β → Prop} {f : β → γ → Option β} {l : List γ}
    (hstep : ∀ a ∈ l, ∀ b b', P b → f b a = some b' → P b') {b b' : β} (hb : P b)
    (h : l.foldlM f b = some b') : P b' := by
  induction l generalizing b with
  | nil =>
    cases h
    exact hb
  | cons a l ih =>
    obtain ⟨ha, hl⟩ := List.forall_mem_cons.mp hstep
    rw [List.foldlM_cons] at h
    obtain ⟨next, hnext, hrest⟩ := Option.bind_eq_some_iff.mp h
    exact ih hl (ha b next hb hnext) hrest

theorem ordered_inlineTable? {pairs : List (List String × TomlValue)} {v : TomlValue}
    (hp : ∀ p ∈ pairs, p.2.Ordered) (h : inlineTable? pairs = some v) : v.Ordered := by
  obtain ⟨es, hes, rfl⟩ := Option.map_eq_some_iff.mp h
  exact foldlM_invariant (P := InOrder)
    (fun p hmem es es' => keepsOrder_putDotted (hp p hmem) .header es es') inOrder_nil hes

theorem ordered_wordValue? {word : List Char} {v : TomlValue} (h : wordValue? word = some v) :
    v.Ordered := by
  refine ordered_of_ne_table fun entries he => ?_
  subst he
  unfold wordValue? at h
  split at h
  · cases h
  · split at h
    · cases h
    · simp [Option.or_eq_some_iff] at h

theorem ordered_readWord {text rest : List Char} {v : TomlValue}
    (h : readWord text = some (v, rest)) : v.Ordered := by
  unfold readWord at h
  dsimp only at h
  split at h
  · obtain ⟨s, -, hs⟩ := Option.map_eq_some_iff.mp h
    cases hs
    exact ordered_of_ne_table nofun
  · obtain ⟨w, hw, hs⟩ := Option.map_eq_some_iff.mp h
    cases hs
    exact ordered_wordValue? hw

/-- Values are in order, as the pairs of a table in braces are put into it one after the other. -/
theorem ordered_readValue (fuel : Nat) :
    (∀ depth text v rest, readValue fuel depth text = some (v, rest) → v.Ordered) ∧
    ∀ depth text pairs rest, readPairs fuel depth text = some (pairs, rest) →
      ∀ p ∈ pairs, p.2.Ordered := by
  induction fuel with
  | zero =>
    refine ⟨fun depth text v rest h => ?_, fun depth text pairs rest h => ?_⟩
    · rw [readValue] at h
      cases h
    · rw [readPairs] at h
      cases h
  | succ fuel ih =>
    obtain ⟨hvalue, hpairs⟩ := ih
    refine ⟨fun depth text v rest h => ?_, fun depth text pairs rest h => ?_⟩
    · unfold readValue at h
      split at h
      · obtain ⟨_, -, hs⟩ := Option.map_eq_some_iff.mp h
        cases hs
        exact ordered_of_ne_table nofun
      · split at h
        · cases h
          exact ordered_table_iff.mpr ⟨.nil, by simp⟩
        · obtain ⟨⟨pairs, rest'⟩, hp, h⟩ := Option.bind_eq_some_iff.mp h
          obtain ⟨w, hw, hs⟩ := Option.map_eq_some_iff.mp h
          cases hs
          exact ordered_inlineTable? (hpairs _ _ _ _ hp) hw
      · split at h
        · obtain ⟨_, -, hs⟩ := Option.map_eq_some_iff.mp h
          cases hs
          exact ordered_of_ne_table nofun
        · exact ordered_readWord h
    · rw [readPairs] at h
      split at h
      · cases h
      · split at h
        · cases h
        · next v rest' hv =>
          have hv := hvalue _ _ _ _ hv
          split at h
          · obtain ⟨⟨more, rest''⟩, hmore, hs⟩ := Option.map_eq_some_iff.mp h
            cases hs
            exact List.forall_mem_cons.mpr ⟨hv, hpairs _ _ _ _ hmore⟩
          · cases h
            exact List.forall_mem_singleton.mpr hv
          · cases h

/-- The value of a statement is in order. -/
def Statement.InOrder : Statement → Prop
  | .pair _ v => v.Ordered
  | .table _ | .element _ => True

theorem inOrder_readStatement {text rest : List Char} {s : Statement}
    (h : readStatement text = some (s, rest)) : s.InOrder := by
  unfold readStatement at h
  split at h
  · obtain ⟨_, -, h⟩ := Option.bind_eq_some_iff.mp h
    obtain ⟨_, -, h⟩ := Option.bind_eq_some_iff.mp h
    obtain ⟨_, -, h⟩ := Option.bind_eq_some_iff.mp h
    cases h
    trivial
  · obtain ⟨_, -, h⟩ := Option.bind_eq_some_iff.mp h
    obtain ⟨_, -, h⟩ := Option.bind_eq_some_iff.mp h
    cases h
    trivial
  · obtain ⟨_, -, h⟩ := Option.bind_eq_some_iff.mp h
    obtain ⟨⟨v, rest'⟩, hv, h⟩ := Option.bind_eq_some_iff.mp h
    cases h
    exact (ordered_readValue _).1 _ _ _ _ hv

theorem inOrder_readStatements {fuel : Nat} {text : List Char} {statements : List Statement}
    (h : readStatements fuel text = some statements) : ∀ s ∈ statements, s.InOrder := by
  induction fuel generalizing text statements with
  | zero => cases h
  | succ fuel ih =>
    rw [readStatements] at h
    split at h
    · cases h
      simp
    · obtain ⟨⟨s, rest⟩, hs, h⟩ := Option.bind_eq_some_iff.mp h
      obtain ⟨_, -, h⟩ := Option.bind_eq_some_iff.mp h
      obtain ⟨more, hmore, h⟩ := Option.bind_eq_some_iff.mp h
      cases h
      exact List.forall_mem_cons.mpr ⟨inOrder_readStatement hs, ih hmore⟩

theorem inOrder_add? {s : Statement} {d d' : Draft} (hs : s.InOrder) (hd : InOrder d.entries)
    (h : d.add? s = some d') : InOrder d'.entries := by
  have hopen : ∀ path (change : String → TableChange), (∀ name, KeepsOrder (change name)) →
      d.open? path change = some d' → InOrder d'.entries := by
    intro path change hc h
    unfold Draft.open? at h
    split at h
    · obtain ⟨es, hes, rfl⟩ := Option.map_eq_some_iff.mp h
      exact keepsOrder_descend (hc _) _ _ _ _ hd hes
    · cases h
  cases s with
  | table path => exact hopen path _ (fun _ => keepsOrder_putTable) h
  | element path => exact hopen path _ (fun _ => keepsOrder_pushTable) h
  | pair path v =>
    obtain ⟨es, hes, rfl⟩ := Option.map_eq_some_iff.mp h
    exact keepsOrder_descend (keepsOrder_putDotted hs) _ _ _ _ hd hes

/-- A document that was read is a table, and its tables are in order. -/
theorem ordered_of_parse? {text : String} {document : TomlValue}
    (h : TomlValue.parse? text = some document) : document.Ordered := by
  unfold TomlValue.parse? at h
  obtain ⟨statements, hstatements, h⟩ := Option.bind_eq_some_iff.mp h
  obtain ⟨draft, hdraft, h⟩ := Option.bind_eq_some_iff.mp h
  cases h
  exact foldlM_invariant (P := fun d => InOrder d.entries)
    (fun s hs d d' => inOrder_add? (inOrder_readStatements hstatements s hs)) inOrder_nil hdraft

end Toml

end Formwork
