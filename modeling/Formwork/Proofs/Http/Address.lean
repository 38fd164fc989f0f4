import Formwork.Http.Message
import Formwork.Proofs.Routing.Matching
import Formwork.Proofs.Text.Percent

/-!
# The address of an outcome as the target of a request

- **Cuts** (`RequestTarget.ofPath_cons`, `RequestTarget.ofText_of_slash`): the query of a target
  starts behind the first question mark, and a fragment is left out before.
- **Addresses** (`Onward.path_ofPath_url`, `Onward.pairs_ofPath_url`): the address of an outcome has
  the path of the outcome, and the pairs of its query are those of the query that the path has
  itself, and then the parameters.
-/

namespace Formwork

/-! ## Cuts -/

namespace RequestTarget

/-- The pairs of the query. -/
def pairs (t : RequestTarget) : List (String × String) := Text.formPairs (Text.utf8 t.query.toList)

/-- A run without a character is passed over on the way to it. -/
theorem passes_of_not_mem {stop : Char} {l : List Char} (h : stop ∉ l) :
    ∀ c ∈ l, decide (c ≠ stop) = true := fun _ hc => decide_eq_true fun he => h (he ▸ hc)

theorem ofPath_cons {a b : List Char} (h : '?' ∉ a) :
    ofPath (a ++ '?' :: b) = ⟨if a.isEmpty then "/" else String.ofList a, String.ofList b⟩ := by
  unfold ofPath
  rw [List.takeWhile_append_of_pos (passes_of_not_mem h),
    List.dropWhile_append_of_pos (passes_of_not_mem h)]
  simp

theorem ofPath_of_not_mem {a : List Char} (h : '?' ∉ a) :
    ofPath a = ⟨if a.isEmpty then "/" else String.ofList a, ""⟩ := by
  unfold ofPath
  rw [List.takeWhile_eq_self_iff.mpr (passes_of_not_mem h),
    List.dropWhile_eq_nil_iff.mpr (passes_of_not_mem h)]
  rfl

/-- A target that starts with a slash is a path with a query, up to a fragment. -/
theorem ofText_of_slash {text : String} (h : text.toList.head? = some '/') :
    ofText text = ofPath (text.toList.takeWhile (· ≠ '#')) := by
  obtain ⟨rest, ht⟩ : ∃ rest, text.toList = '/' :: rest := by
    cases hl : text.toList with
    | nil => simp [hl] at h
    | cons c rest =>
      rw [hl, List.head?_cons, Option.some.injEq] at h
      exact ⟨rest, by rw [h]⟩
  unfold ofText
  rw [ht]
  rfl

end RequestTarget

/-! ## Addresses -/

namespace Onward

variable {o : Onward}

/-- The pairs of the parameters as a query. -/
def query (o : Onward) : List Char := (String.intercalate "&" (o.pairs.map pairText)).toList

/-- The path, and the query with what separates it from the path. -/
theorem toList_url (ha : o.anchor = none) : o.url.toList = o.path.toList ++
    if o.pairs.isEmpty then []
    else (if o.path.toList.contains '?' then '&' else '?') :: o.query := by
  simp only [url, ha, Option.map_none, Option.getD_none, String.append_empty,
    String.toList_append]
  congr 1
  split
  · rfl
  · split <;> simp [query]

/-- A query holds no number sign, so the fragment of an address is that of the outcome. -/
theorem hash_not_mem_query : '#' ∉ o.query := by
  intro hm
  rw [query, String.toList_intercalate] at hm
  rcases mem_intercalate hm with h | ⟨part, hpart, hc⟩
  · exact absurd h (by decide)
  · simp only [List.mem_map] at hpart
    obtain ⟨_, ⟨p, -, rfl⟩, rfl⟩ := hpart
    simp only [pairText, String.toList_append, List.mem_append] at hc
    rcases hc with (hc | hc) | hc
    · exact (Text.isPlain_of_mem_encodeComponent hc).2 (by simp)
    · exact absurd hc (by decide)
    · exact (Text.isPlain_of_mem_encodeComponent hc).2 (by simp)

theorem hash_not_mem_url (ha : o.anchor = none) (h : '#' ∉ o.path.toList) :
    '#' ∉ o.url.toList := by
  intro hc
  rw [toList_url ha, List.mem_append] at hc
  rcases hc with hc | hc
  · exact h hc
  · split at hc
    · cases hc
    · rcases List.mem_cons.mp hc with he | hc
      · split at he <;> cases he
      · exact hash_not_mem_query hc

theorem url_of_pairs_eq_nil (ha : o.anchor = none) (hp : o.pairs = []) : o.url = o.path := by
  rw [← String.toList_inj, toList_url ha, hp]
  simp

/-- The target of an address: the path of the outcome up to its own query. -/
theorem path_ofPath_url (ha : o.anchor = none) :
    (RequestTarget.ofPath o.url.toList).path = (RequestTarget.ofPath o.path.toList).path := by
  by_cases hp : o.pairs = []
  · rw [url_of_pairs_eq_nil ha hp]
  rw [toList_url ha, if_neg (by simpa using hp)]
  by_cases hq : '?' ∈ o.path.toList
  · obtain ⟨a, b, hpath, hno⟩ := List.eq_append_cons_of_mem hq
    rw [hpath, List.append_assoc, List.cons_append, RequestTarget.ofPath_cons hno,
      RequestTarget.ofPath_cons hno]
  · rw [if_neg (by simpa using hq), RequestTarget.ofPath_cons hq,
      RequestTarget.ofPath_of_not_mem hq]

/-- The pairs of an address: those of the path's own query, and then the parameters. -/
theorem pairs_ofPath_url (ha : o.anchor = none) :
    (RequestTarget.ofPath o.url.toList).pairs =
      (RequestTarget.ofPath o.path.toList).pairs ++ o.pairs := by
  by_cases hp : o.pairs = []
  · rw [url_of_pairs_eq_nil ha hp, hp, List.append_nil]
  have hread : Text.formPairs (Text.utf8 o.query) = o.pairs := Text.formPairs_query o.pairs
  rw [toList_url ha, if_neg (by simpa using hp)]
  by_cases hq : '?' ∈ o.path.toList
  · obtain ⟨a, b, hpath, hno⟩ := List.eq_append_cons_of_mem hq
    have hbytes : Text.utf8 (b ++ '&' :: o.query) =
        Text.utf8 b ++ 38 :: Text.utf8 o.query := by
      rw [Text.utf8_append]
      rfl
    rw [if_pos (by simpa using hq), hpath, List.append_assoc, List.cons_append,
      RequestTarget.ofPath_cons hno, RequestTarget.ofPath_cons hno, RequestTarget.pairs,
      RequestTarget.pairs, String.toList_ofList, String.toList_ofList, hbytes,
      Text.formPairs_append, hread]
  · rw [if_neg (by simpa using hq), RequestTarget.ofPath_cons hq,
      RequestTarget.ofPath_of_not_mem hq, RequestTarget.pairs, RequestTarget.pairs,
      String.toList_ofList, hread]
    rfl

/-- The target of an address that starts with a slash: a number sign in the path starts a fragment,
with which the parameters are left out. -/
theorem ofText_url (ha : o.anchor = none) (h : o.path.toList.head? = some '/') :
    RequestTarget.ofText o.url = if '#' ∈ o.path.toList then RequestTarget.ofText o.path
      else RequestTarget.ofPath o.url.toList := by
  have hurl : o.url.toList.head? = some '/' := by
    rw [toList_url ha, List.head?_append, h, Option.some_or]
  rw [RequestTarget.ofText_of_slash hurl, RequestTarget.ofText_of_slash h]
  split
  · next hm =>
    obtain ⟨a, b, hpath, hno⟩ := List.eq_append_cons_of_mem hm
    rw [toList_url ha, hpath, List.append_assoc,
      List.takeWhile_append_of_pos (RequestTarget.passes_of_not_mem hno),
      List.takeWhile_append_of_pos (RequestTarget.passes_of_not_mem hno)]
    simp
  · next hno =>
    have hplain := hash_not_mem_url ha hno
    rw [List.takeWhile_eq_self_iff.mpr (RequestTarget.passes_of_not_mem hplain)]

end Onward

end Formwork
