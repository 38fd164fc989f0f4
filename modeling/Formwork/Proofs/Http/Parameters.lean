import Formwork.Proofs.FirstUse
import Formwork.Proofs.Http.Address

/-!
# The parameters of an outcome in its address

- **Parameters** (`Onward.parameters_foldl_addParameter`): parameters that are added one after the
  other stand in the order in which their names were first used, each with all the values that it
  was given, in the order of the calls (`Onward.given`).
- **Fragments** (`Onward.takeWhile_url`): the first number sign of an address starts the anchor, if
  the path has none.
- **Addresses** (`Outcome.url_carries`): so an address is read as the path of the outcome with the
  pairs of the path's own query, and then the parameters.
-/

namespace Formwork

namespace Onward

variable {o : Onward} {calls : List (String × List String)}

/-! ## Parameters -/

/-- The values that calls give to a name in all. -/
def given (calls : List (String × List String)) (name : String) : List String :=
  (calls.filter (·.1 == name)).flatMap fun c => shownValues c.2

/-- The pairs that calls add: the names in the order of their first use, each with all its
values. -/
def added (calls : List (String × List String)) : List (String × String) :=
  (calls.map (·.1)).eraseDups.flatMap fun name => (given calls name).map (name, ·)

theorem given_concat (name : String) (c : String × List String) :
    given (calls ++ [c]) name =
      if c.1 = name then given calls name ++ shownValues c.2 else given calls name := by
  by_cases h : c.1 = name <;> simp [given, h]

theorem given_eq_nil {name : String} (h : name ∉ calls.map (·.1)) : given calls name = [] := by
  have hnone : calls.filter (·.1 == name) = [] :=
    List.filter_eq_nil_iff.mpr fun c hc he => h (beq_iff_eq.mp he ▸ List.mem_map_of_mem hc)
  rw [given, hnone, List.flatMap_nil]

theorem addValues_of_not_mem {names : List String} {values : String → List String} {name : String}
    (h : name ∉ names) (new : List String) :
    addValues name new (names.map fun n => (n, values n)) =
      names.map (fun n => (n, values n)) ++ [(name, new)] := by
  induction names with
  | nil => rfl
  | cons n names ih =>
    rw [List.mem_cons, not_or] at h
    rw [List.map_cons, addValues, if_neg (Ne.symm h.1), ih h.2, List.cons_append]

theorem addValues_of_mem {names : List String} {values : String → List String} {name : String}
    (h : name ∈ names) (hn : names.Nodup) (new : List String) :
    addValues name new (names.map fun n => (n, values n)) =
      names.map fun n => (n, if name = n then values n ++ new else values n) := by
  induction names with
  | nil => cases h
  | cons n names ih =>
    rw [List.nodup_cons] at hn
    rw [List.map_cons, addValues, List.map_cons]
    by_cases he : n = name
    · subst he
      have hrest : ∀ m ∈ names, (m, values m) = (m, if n = m then values m ++ new else values m) :=
        fun m hm => by rw [if_neg fun he : n = m => hn.1 (he ▸ hm)]
      rw [if_pos rfl, if_pos rfl, List.map_congr_left hrest]
    · rw [if_neg he, if_neg (Ne.symm he),
        ih ((List.mem_cons.mp h).resolve_left (Ne.symm he)) hn.2]

/-- Parameters that are added one after the other. -/
theorem parameters_foldl_addParameter (ho : o.parameters = []) :
    (calls.foldl (fun o c => o.addParameter c.1 c.2) o).parameters =
      (calls.map (·.1)).eraseDups.map fun name => (name, given calls name) := by
  induction calls using List.reverseRecOn with
  | nil => simpa using ho
  | append_singleton calls c ih =>
    rw [List.foldl_concat, addParameter, ih, List.map_append, List.map_singleton]
    by_cases h : c.1 ∈ calls.map (·.1)
    · rw [eraseDups_concat_of_mem h,
        addValues_of_mem (List.mem_eraseDups.mpr h) (nodup_eraseDups _)]
      simp only [given_concat]
    · have hnames : ∀ name ∈ (calls.map (·.1)).eraseDups,
          (name, given calls name) = (name, given (calls ++ [c]) name) := fun name hm => by
        rw [given_concat, if_neg fun he : c.1 = name => h (he ▸ List.mem_eraseDups.mp hm)]
      rw [eraseDups_concat_of_not_mem h,
        addValues_of_not_mem (fun hm => h (List.mem_eraseDups.mp hm)), List.map_append,
        List.map_congr_left hnames, List.map_singleton, given_concat, if_pos rfl, given_eq_nil h,
        List.nil_append]

/-- Adding parameters changes nothing else. -/
theorem foldl_addParameter_eq (ho : o.parameters = []) :
    calls.foldl (fun o c => o.addParameter c.1 c.2) o = { o with
      parameters := (calls.map (·.1)).eraseDups.map fun name => (name, given calls name) } := by
  rw [← parameters_foldl_addParameter ho]
  clear ho
  induction calls generalizing o with
  | nil => rfl
  | cons c calls ih => exact ih

/-! ## Fragments -/

/-- The first number sign of an address starts its anchor. -/
theorem takeWhile_url (h : '#' ∉ o.path.toList) :
    o.url.toList.takeWhile (· ≠ '#') = ({ o with anchor := none } : Onward).url.toList := by
  have hbase := hash_not_mem_url (o := { o with anchor := none }) rfl h
  cases ha : o.anchor with
  | none =>
    have ho : ({ o with anchor := none } : Onward) = o := by rw [← ha]
    rw [ho] at hbase ⊢
    exact List.takeWhile_eq_self_iff.mpr (RequestTarget.passes_of_not_mem hbase)
  | some text =>
    have hurl : o.url.toList =
        ({ o with anchor := none } : Onward).url.toList ++ '#' :: text.toList := by
      simp only [url, ha, Option.map_some, Option.map_none, Option.getD_some, Option.getD_none,
        String.toList_append, String.append_empty]
      rfl
    rw [hurl, List.takeWhile_append_of_pos (RequestTarget.passes_of_not_mem hbase)]
    simp

/-- The part of an address before its query is that of the path. -/
theorem takeWhile_question_url (ha : o.anchor = none) :
    o.url.toList.takeWhile (· ≠ '?') = o.path.toList.takeWhile (· ≠ '?') := by
  by_cases hp : o.pairs = []
  · rw [url_of_pairs_eq_nil ha hp]
  rw [toList_url ha, if_neg (by simpa using hp)]
  by_cases hq : '?' ∈ o.path.toList
  · obtain ⟨a, b, hpath, hno⟩ := List.eq_append_cons_of_mem hq
    rw [hpath, List.append_assoc,
      List.takeWhile_append_of_pos (RequestTarget.passes_of_not_mem hno),
      List.takeWhile_append_of_pos (RequestTarget.passes_of_not_mem hno)]
    simp
  · rw [if_neg (by simpa using hq),
      List.takeWhile_append_of_pos (RequestTarget.passes_of_not_mem hq),
      List.takeWhile_eq_self_iff.mpr (RequestTarget.passes_of_not_mem hq)]
    simp

end Onward

/-! ## Addresses -/

namespace Outcome

variable {calls : List (String × List String)}

theorem addParameters_forward (o : Onward) : (forward o).addParameters calls =
    forward (calls.foldl (fun o c => o.addParameter c.1 c.2) o) := by
  unfold addParameters
  induction calls generalizing o with
  | nil => rfl
  | cons c calls ih => exact ih _

theorem addParameters_redirect (o : Onward) : (redirect o).addParameters calls =
    redirect (calls.foldl (fun o c => o.addParameter c.1 c.2) o) := by
  unfold addParameters
  induction calls generalizing o with
  | nil => rfl
  | cons c calls ih => exact ih _

/-- Sets the anchor of a forward or a redirect, if one is given. -/
def withAnchor (o : Outcome) (anchor : Option String) : Outcome := anchor.elim o o.setAnchor

theorem url?_withAnchor {path : String} {o : Outcome}
    (ho : o = .forward { path } ∨ o = .redirect { path }) (anchor : Option String) :
    ((o.addParameters calls).withAnchor anchor).url? = some (Onward.url
      ⟨path, (calls.map (·.1)).eraseDups.map fun name => (name, Onward.given calls name),
        anchor⟩) := by
  rcases ho with rfl | rfl
  · rw [addParameters_forward, Onward.foldl_addParameter_eq rfl]
    cases anchor <;> rfl
  · rw [addParameters_redirect, Onward.foldl_addParameter_eq rfl]
    cases anchor <;> rfl

/-- **Addresses carry their parameters.** Let a forward or a redirect to a path without a number
sign be given parameters, whatever their names and values, and any anchor. Up to the first number
sign, its address is read as the path and the pairs of the path's own query, and then the
parameters. -/
theorem url_carries {path : String} (hp : '#' ∉ path.toList)
    (calls : List (String × List String)) (anchor : Option String) {o : Outcome}
    (ho : o = .forward { path } ∨ o = .redirect { path }) :
    ∃ url, ((o.addParameters calls).withAnchor anchor).url? = some url ∧
      (url.toList.takeWhile (· ≠ '#')).takeWhile (· ≠ '?') = path.toList.takeWhile (· ≠ '?') ∧
      (RequestTarget.ofPath (url.toList.takeWhile (· ≠ '#'))).pairs =
        (RequestTarget.ofPath path.toList).pairs ++ Onward.added calls := by
  refine ⟨_, url?_withAnchor ho anchor, ?_, ?_⟩
  · rw [Onward.takeWhile_url hp, Onward.takeWhile_question_url rfl]
  · rw [Onward.takeWhile_url hp, Onward.pairs_ofPath_url rfl]
    congr 1
    simp [Onward.pairs, Onward.added, List.flatMap_map]

/-- Names and values with separators, in an address that has a query and an anchor already. -/
theorem url_carries_search : '#' ∉ "/find?lang=en".toList ∧
    ∃ url, (((redirect { path := "/find?lang=en" }).addParameters
        [("q", ["a&b=c", "#1?"]), ("größe", []), ("q", ["+ %"])]).withAnchor
          (some "top#?x=y")).url? = some url ∧
      (url.toList.takeWhile (· ≠ '#')).takeWhile (· ≠ '?') =
        "/find?lang=en".toList.takeWhile (· ≠ '?') ∧
      (RequestTarget.ofPath (url.toList.takeWhile (· ≠ '#'))).pairs =
        [("lang", "en"), ("q", "a&b=c"), ("q", "#1?"), ("q", "+ %"), ("größe", "")] := by
  have hp : '#' ∉ "/find?lang=en".toList := by decide +kernel
  refine ⟨hp, ?_⟩
  have hread := url_carries hp [("q", ["a&b=c", "#1?"]), ("größe", []), ("q", ["+ %"])]
    (some "top#?x=y") (.inr rfl)
  have hown : (RequestTarget.ofPath "/find?lang=en".toList).pairs ++ Onward.added
      [("q", ["a&b=c", "#1?"]), ("größe", []), ("q", ["+ %"])] =
      [("lang", "en"), ("q", "a&b=c"), ("q", "#1?"), ("q", "+ %"), ("größe", "")] := by
    decide +kernel
  rwa [hown] at hread

end Outcome

end Formwork
