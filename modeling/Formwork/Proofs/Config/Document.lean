import Mathlib
import Formwork.Config.Environment
import Formwork.Proofs.Toml.Table

/-!
# The keys of a TOML document

- **Leaves** (`TomlValue.LeafAt`): a value that is no table, at the end of a path of names. The
  leaves of a document are listed under the keys of their paths, and nothing else is
  (`mem_leaves_iff`).
- **Keys** (`dotted_injective`): names that are not empty and have no points are found again in the
  key that joins them with points, so two leaves have two keys.
- **Sources** (`PropertySource.parseToml_flattens`): a source made of a document has the leaves of
  the document under their dotted keys, and nothing else.
-/

namespace Formwork

namespace TomlValue

variable {v w document leaf : TomlValue} {key k : String} {c : ConfigValue} {path : List String}
  {entries : List (String × TomlValue)}

/-! ## Leaves -/

/-- What holds of all values that are no tables, and of a table if it holds of its entries, holds of
all values. -/
theorem table_induction {motive : TomlValue → Prop}
    (single : ∀ v, (∀ entries, v ≠ table entries) → motive v)
    (table : ∀ entries, (∀ e ∈ entries, motive e.2) → motive (table entries)) :
    ∀ v, motive v
  | .text s => single _ nofun
  | .integer n => single _ nofun
  | .float x => single _ nofun
  | .bool b => single _ nofun
  | .moment s => single _ nofun
  | .list items => single _ nofun
  | .table entries => table entries fun e he =>
      have : sizeOf e.2 < sizeOf entries := by
        have hmem := List.sizeOf_lt_of_mem he
        have hpair : sizeOf e = 1 + sizeOf e.1 + sizeOf e.2 := rfl
        omega
      table_induction single table e.2

/-- A value that is no table, at the end of a path. -/
structure LeafAt (v : TomlValue) (path : List String) (leaf : TomlValue) : Prop where
  below : v.Below path leaf
  single : ∀ entries, leaf ≠ table entries

theorem leaves_of_ne_table (h : ∀ entries, v ≠ table entries) (key : String) :
    v.leaves key = [(key, v.toConfig)] := by
  cases v with
  | table entries => exact absurd rfl (h entries)
  | _ => rfl

theorem mem_entryLeaves_iff {p : String × ConfigValue} :
    p ∈ entryLeaves key entries ↔ ∃ e ∈ entries, p ∈ e.2.leaves (keyBelow key e.1) := by
  induction entries with
  | nil => simp [entryLeaves]
  | cons e rest ih =>
    obtain ⟨name, v⟩ := e
    rw [entryLeaves, List.mem_append, ih]
    simp

/-- What is listed below a key are the leaves, under the keys of their paths. -/
theorem mem_leaves_iff : (k, c) ∈ v.leaves key ↔
    ∃ path leaf, v.LeafAt path leaf ∧ path.foldl keyBelow key = k ∧ leaf.toConfig = c := by
  induction v using table_induction generalizing key with
  | single v hv =>
    rw [leaves_of_ne_table hv, List.mem_singleton, Prod.mk.injEq]
    constructor
    · rintro ⟨rfl, rfl⟩
      exact ⟨[], v, ⟨.here, hv⟩, rfl, rfl⟩
    · rintro ⟨path, leaf, ⟨hbelow, -⟩, rfl, rfl⟩
      cases hbelow with
      | here => exact ⟨rfl, rfl⟩
      | entry hm _ => exact absurd rfl (hv _)
  | table entries ih =>
    rw [leaves, mem_entryLeaves_iff]
    constructor
    · rintro ⟨e, he, hk⟩
      obtain ⟨path, leaf, ⟨hbelow, hleaf⟩, rfl, rfl⟩ := (ih e he).mp hk
      exact ⟨e.1 :: path, leaf, ⟨.entry he hbelow, hleaf⟩, rfl, rfl⟩
    · rintro ⟨path, leaf, ⟨hbelow, hleaf⟩, rfl, rfl⟩
      cases hbelow with
      | here => exact absurd rfl (hleaf entries)
      | @entry _ name path v _ hm hv =>
        exact ⟨(name, v), hm, (ih _ hm).mpr ⟨path, leaf, ⟨hv, hleaf⟩, rfl, rfl⟩⟩

theorem Distinct.entry (h : (table entries).Distinct) {e : String × TomlValue} (he : e ∈ entries) :
    e.2.Distinct := fun path inner hbelow => h (e.1 :: path) inner (.entry he hbelow)

/-- With distinct names, one value is below another at the end of a path. -/
theorem Below.unique (hd : document.Distinct) (hv : document.Below path v)
    (hw : document.Below path w) : v = w := by
  induction hv with
  | here => cases hw; rfl
  | @entry entries name path v leaf hm _ ih =>
    cases hw with
    | @entry _ _ _ v' _ hm' hw =>
      have hn := hd [] entries .here
      have hfind := (NameMap.find_eq_some_iff hn).mpr hm
      obtain rfl : v = v' :=
        Option.some.inj (hfind.symm.trans ((NameMap.find_eq_some_iff hn).mpr hm'))
      exact ih (hd.entry hm) hw

/-! ## Keys -/

/-- The key of a path: its names with points between them. -/
def dotted (path : List String) : String := String.intercalate "." path

/-- A name that a point ends. -/
def IsPlainName (name : String) : Prop := name ≠ "" ∧ '.' ∉ name.toList

/-- The names in the tables below a value are not empty and have no points. -/
def PlainNames (v : TomlValue) : Prop :=
  ∀ path entries, v.Below path (table entries) → ∀ e ∈ entries, IsPlainName e.1

theorem PlainNames.entry (h : (table entries).PlainNames) {e : String × TomlValue}
    (he : e ∈ entries) : e.2.PlainNames :=
  fun path inner hbelow => h (e.1 :: path) inner (.entry he hbelow)

theorem PlainNames.of_below (hn : document.PlainNames) (h : document.Below path v) :
    ∀ name ∈ path, IsPlainName name := by
  induction h with
  | here => simp
  | entry hm _ ih => exact List.forall_mem_cons.mpr ⟨hn [] _ .here _ hm, ih (hn.entry hm)⟩

theorem foldl_keyBelow_eq_dotted (hk : key ≠ "") (path : List String) :
    path.foldl keyBelow key = dotted (key :: path) := by
  induction path generalizing key with
  | nil => rfl
  | cons name path ih =>
    have hbelow : keyBelow key name = key ++ "." ++ name := by
      rw [keyBelow, if_neg (by simpa using hk)]
    have hne : key ++ "." ++ name ≠ "" := by
      intro he
      have hempty := congrArg String.toList he
      simp at hempty
    rw [List.foldl_cons, hbelow, ih hne]
    rfl

/-- The key under which a leaf is listed is that of its path. -/
theorem foldl_keyBelow (h : ∀ name ∈ path, IsPlainName name) :
    path.foldl keyBelow "" = dotted path := by
  cases path with
  | nil => rfl
  | cons name path =>
    have hbelow : keyBelow "" name = name := rfl
    rw [List.foldl_cons, hbelow, foldl_keyBelow_eq_dotted (h name (List.mem_cons_self ..)).1]

/-- The key of a path that is not empty, cut at its points, gives the names. -/
theorem splitOn_dotted (h : ∀ name ∈ path, IsPlainName name) (hne : path ≠ []) :
    (dotted path).toList.splitOn '.' = path.map String.toList := by
  rw [dotted, String.toList_intercalate]
  refine List.splitOn_intercalate '.' (fun l hl => ?_) (by simpa using hne)
  obtain ⟨name, hname, rfl⟩ := List.mem_map.mp hl
  exact (h name hname).2

theorem dotted_ne_empty (h : ∀ name ∈ path, IsPlainName name) (hne : path ≠ []) :
    dotted path ≠ "" := by
  intro he
  have hsplit := splitOn_dotted h hne
  rw [he] at hsplit
  cases path with
  | nil => exact hne rfl
  | cons name path =>
    have hname : [] = name.toList := (List.cons.inj hsplit).1
    exact (h name (List.mem_cons_self ..)).1 (String.toList_eq_nil_iff.mp hname.symm)

/-- Two paths of plain names have two keys. -/
theorem dotted_injective {path' : List String} (h : ∀ name ∈ path, IsPlainName name)
    (h' : ∀ name ∈ path', IsPlainName name) (he : dotted path = dotted path') : path = path' := by
  by_cases hne : path = []
  · by_cases hne' : path' = []
    · rw [hne, hne']
    · rw [hne] at he
      exact absurd he.symm (dotted_ne_empty h' hne')
  · by_cases hne' : path' = []
    · rw [hne'] at he
      exact absurd he (dotted_ne_empty h hne)
    · have hnames : path.map String.toList = path'.map String.toList := by
        rw [← splitOn_dotted h hne, ← splitOn_dotted h' hne', he]
      exact (List.map_inj_right fun _ _ => String.toList_inj.mp).mp hnames

/-! ## Values in lists -/

theorem toConfig_list (items : List TomlValue) :
    (list items).toConfig = .list (items.map toConfig) := by
  have hitems : configItems items = items.map toConfig := by
    induction items with
    | nil => rfl
    | cons v rest ih => rw [configItems, ih, List.map_cons]
  rw [toConfig, hitems]

theorem toConfig_table (entries : List (String × TomlValue)) :
    (table entries).toConfig = .object (entries.map fun e => (e.1, e.2.toConfig)) := by
  have hentries : configEntries entries = entries.map fun e => (e.1, e.2.toConfig) := by
    induction entries with
    | nil => rfl
    | cons e rest ih =>
      obtain ⟨name, v⟩ := e
      rw [configEntries, ih, List.map_cons]
  rw [toConfig, hentries]

end TomlValue

namespace PropertySource

open TomlValue

variable {document : TomlValue}

/-! ## Sources -/

/-- The keys of a source are those of the leaves of a document, and the value of a key is that of
its leaf. -/
def Flattens (s : PropertySource) (document : TomlValue) : Prop :=
  ∀ key c, s.get? key = some c ↔
    ∃ path leaf, document.LeafAt path leaf ∧ dotted path = key ∧ leaf.toConfig = c

theorem mem_leaves_of_plainNames (hn : document.PlainNames) {key : String} {c : ConfigValue} :
    (key, c) ∈ document.leaves "" ↔
      ∃ path leaf, document.LeafAt path leaf ∧ dotted path = key ∧ leaf.toConfig = c := by
  rw [mem_leaves_iff]
  refine exists₂_congr fun path leaf => and_congr_right fun hleaf => ?_
  rw [foldl_keyBelow (hn.of_below hleaf.below)]

theorem ofToml_flattens (hd : document.Distinct) (hn : document.PlainNames) (name : String)
    (priority : Int) : (ofToml name document priority).Flattens document := by
  intro key c
  rw [← mem_leaves_of_plainNames hn]
  refine NameMap.get?_ofList_of_agree fun p hp q hq hkey => ?_
  -- Leaves with one key have one path, and there is one value at the end of it.
  obtain ⟨path, leaf, hleaf, hpath, hvalue⟩ := (mem_leaves_of_plainNames hn).mp hp
  obtain ⟨path', leaf', hleaf', hpath', hvalue'⟩ := (mem_leaves_of_plainNames hn).mp hq
  obtain rfl : path = path' :=
    dotted_injective (hn.of_below hleaf.below) (hn.of_below hleaf'.below)
      (hpath.trans (hkey.trans hpath'.symm))
  rw [← hvalue, ← hvalue', hleaf.below.unique hd hleaf'.below]

/-- **The keys of a document.** If the names in the tables of a document are not empty and have no
points, a source made of the document has each value that is no table under the dotted key of its
path, and no other keys; so it is for every document that is read from a text, and for every other
one that has no name twice in a table. The items of a list, and the entries of a table in a list,
are converted one by one. -/
theorem parseToml_flattens (name : String) (priority : Int) :
    (∀ text document, TomlValue.parse? text = some document → document.PlainNames →
      ∃ source, parseToml name text priority = .ok source ∧ source.Flattens document) ∧
    (∀ document : TomlValue, document.Distinct → document.PlainNames →
      (ofToml name document priority).Flattens document) ∧
    (∀ items, (list items).toConfig = .list (items.map toConfig)) ∧
    ∀ entries, (table entries).toConfig = .object (entries.map fun e => (e.1, e.2.toConfig)) := by
  refine ⟨fun text document hread hn => ?_,
    fun document hd hn => ofToml_flattens hd hn name priority, toConfig_list, toConfig_table⟩
  refine ⟨ofToml name document priority, by rw [parseToml, hread], ?_⟩
  exact ofToml_flattens (Toml.ordered_of_parse? hread).distinct hn name priority

/-- A document with a table in a table. -/
def webDocument : TomlValue :=
  .table [("tessera", .table [("web", .table [("default-locale", .text "de_DE")])])]

/-- The text of a document with a table in a table. -/
def webText : String := "[tessera.web]\ndefault-locale = \"de_DE\""

/-- The key of the value is the path of its tables and its name; the path of a table is no key. -/
theorem parseToml_flattens_webDocument :
    TomlValue.parse? webText = some webDocument ∧ webDocument.Distinct ∧ webDocument.PlainNames ∧
    ∃ source, parseToml "inline" webText 0 = .ok source ∧
      source.get? "tessera.web.default-locale" = some (.text "de_DE") ∧
      source.get? "tessera.web" = none := by
  have hread : TomlValue.parse? webText = some webDocument := by cbv
  have hplain : webDocument.PlainNames := by
    rintro path entries (_ | ⟨hm, _ | ⟨hm', _ | ⟨hm'', _ | _⟩⟩⟩) <;> simp_all [IsPlainName]
  obtain ⟨source, hsource, hget⟩ :=
    (parseToml_flattens "inline" 0).1 webText webDocument hread hplain
  have hdistinct : webDocument.Distinct := (Toml.ordered_of_parse? hread).distinct
  have hleaf : webDocument.LeafAt ["tessera", "web", "default-locale"] (.text "de_DE") :=
    ⟨.entry (.head _) (.entry (.head _) (.entry (.head _) .here)), fun _ h => by cases h⟩
  refine ⟨hread, hdistinct, hplain, source, hsource,
    (hget _ _).mpr ⟨_, _, hleaf, by decide +kernel, rfl⟩, ?_⟩
  rw [Option.eq_none_iff_forall_ne_some]
  intro c hc
  -- The path of the key would be that of a table.
  have htable : webDocument.Below ["tessera", "web"]
      (.table [("default-locale", .text "de_DE")]) := .entry (.head _) (.entry (.head _) .here)
  obtain ⟨path, leaf, hother, hpath, -⟩ := (hget _ _).mp hc
  obtain rfl : path = ["tessera", "web"] :=
    dotted_injective (hplain.of_below hother.below) (hplain.of_below htable)
      (hpath.trans (by decide +kernel))
  exact hother.single _ (hother.below.unique hdistinct htable)

end PropertySource

end Formwork
