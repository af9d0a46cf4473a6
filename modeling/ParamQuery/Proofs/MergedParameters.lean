import ParamQuery.Proofs.FormEncoding
import ParamQuery.Proofs.Occurrences

/-!
# Query strings that are joined

A query string is read piece by piece, and a piece is never read across its ends. So joining two
query strings merges their parameters: what the second one gives for a name comes after what the
first one gives for it. Each piece that is not empty gives one text, and there are no others.
-/

namespace ParamQuery

namespace Text

lemma pieces_eq_splitOn (separator : Char) (text : List Char) :
    pieces separator text = text.splitOn separator := by
  induction text with
  | nil => rfl
  | cons c rest ih =>
    obtain ⟨piece, more, hrest⟩ := List.exists_cons_of_ne_nil (pieces_ne_nil separator rest)
    rw [List.splitOn_cons_eq_if_modifyHead, ← ih, pieces, hrest]
    simp

end Text

namespace ParamValue

lemma absorb_of_texts_eq_nil {value other : ParamValue} (h : other.texts = []) :
    value.absorb other = value := by
  rw [absorb, h]

lemma absorb_of_texts_ne_nil {value other : ParamValue} (h : other.texts ≠ []) :
    value.absorb other = .multi (value.texts ++ other.texts) := by
  rw [absorb]
  split
  · contradiction
  · rfl

lemma absorb_absorb (value first second : ParamValue) :
    (value.absorb first).absorb second = value.absorb (first.absorb second) := by
  by_cases h : second.texts = []
  · rw [absorb_of_texts_eq_nil h, absorb_of_texts_eq_nil h]
  · have hboth : (first.absorb second).texts ≠ [] := by simp [h]
    rw [absorb_of_texts_ne_nil h, absorb_of_texts_ne_nil hboth, texts_absorb, texts_absorb,
      List.append_assoc]

end ParamValue

namespace Parameters

variable {name other : String}

lemma insert_insert_self (params : Parameters) (name : String) (first second : ParamValue) :
    (params.insert name first).insert name second = params.insert name (first.absorb second) := by
  obtain ⟨entries⟩ := params
  simp only [insert, mk.injEq]
  induction entries with
  | nil => simp [insertEntry]
  | cons entry rest ih =>
    obtain ⟨known, existing⟩ := entry
    by_cases h : known = name
    · simp [insertEntry, h, ParamValue.absorb_absorb]
    · simp [insertEntry, h, ih]

/-- A name that is there already keeps its place, so it can be added to before or after others. -/
lemma insert_insert_of_mem {params : Parameters} (hmem : name ∈ params.names)
    (hne : name ≠ other) (first second : ParamValue) :
    (params.insert name first).insert other second =
      (params.insert other second).insert name first := by
  obtain ⟨entries⟩ := params
  simp only [insert, mk.injEq, names] at hmem ⊢
  induction entries with
  | nil => cases hmem
  | cons entry rest ih =>
    obtain ⟨known, existing⟩ := entry
    by_cases hname : known = name
    · simp [insertEntry, hname, hne]
    · have hrest : name ∈ rest.map Prod.fst :=
        (List.mem_cons.mp hmem).resolve_left (Ne.symm hname)
      by_cases hother : known = other
      · simp [insertEntry, hother, Ne.symm hne]
      · simp [insertEntry, hname, hother, ih hrest]

/-- Inserts the entries of other parameters one after another. -/
def insertAll (params others : Parameters) : Parameters :=
  others.entries.foldl (fun known entry => known.insert entry.1 entry.2) params

lemma insertAll_cons (params : Parameters) (name : String) (value : ParamValue)
    (rest : List (String × ParamValue)) :
    params.insertAll ⟨(name, value) :: rest⟩ = (params.insert name value).insertAll ⟨rest⟩ :=
  rfl

lemma mem_names_insert_self (params : Parameters) (name : String) (value : ParamValue) :
    name ∈ (params.insert name value).names := by
  rw [names_insert]
  split
  · assumption
  · simp

lemma mem_names_insert_of_mem {params : Parameters} (h : name ∈ params.names) (other : String)
    (value : ParamValue) : name ∈ (params.insert other value).names := by
  rw [names_insert]
  split
  · exact h
  · exact List.mem_append_left _ h

lemma insertAll_insert_of_mem {params : Parameters} {entries : List (String × ParamValue)}
    (hmem : name ∈ params.names) (hnew : name ∉ entries.map Prod.fst) (value : ParamValue) :
    (params.insert name value).insertAll ⟨entries⟩ =
      (params.insertAll ⟨entries⟩).insert name value := by
  induction entries generalizing params with
  | nil => rfl
  | cons entry rest ih =>
    obtain ⟨other, added⟩ := entry
    rw [List.map_cons, List.mem_cons, not_or] at hnew
    rw [insertAll_cons, insertAll_cons, insert_insert_of_mem hmem hnew.1]
    exact ih (mem_names_insert_of_mem hmem other added) hnew.2

/-- Inserting into the parameters that are inserted is inserting afterwards. -/
lemma insertAll_insert (params : Parameters) {others : Parameters} (hdistinct : others.names.Nodup)
    (name : String) (value : ParamValue) :
    params.insertAll (others.insert name value) = (params.insertAll others).insert name value := by
  obtain ⟨entries⟩ := others
  simp only [insert, names] at hdistinct ⊢
  induction entries generalizing params with
  | nil => rfl
  | cons entry rest ih =>
    obtain ⟨known, existing⟩ := entry
    obtain ⟨hnew, hrest⟩ := List.nodup_cons.mp hdistinct
    by_cases h : known = name
    · subst h
      -- the value is absorbed early, and the entries after this one have other names
      rw [insertEntry, if_pos rfl, insertAll_cons, ← insert_insert_self]
      exact insertAll_insert_of_mem (mem_names_insert_self params known existing) hnew value
    · rw [insertEntry, if_neg h]
      exact ih (params.insert known existing) hrest

/-- Grouping pairs after others is merging the two groups. -/
theorem ofPairs_append (first second : List (String × String)) :
    ofPairs (first ++ second) = (ofPairs first).insertAll (ofPairs second) := by
  induction second using List.reverseRecOn with
  | nil =>
    rw [List.append_nil]
    rfl
  | append_singleton second pair ih =>
    rw [← List.append_assoc, ofPairs_concat, ofPairs_concat, push_eq_insert, push_eq_insert,
      insertAll_insert _ (nodup_names_ofPairs second), ih]

/-- The occurrence that a pair gives. -/
def given (pair : String × String) : Occurrence := ⟨baseName pair.1, pair.2⟩

/-- Grouping keeps every pair. -/
theorem occurrences_ofPairs_perm (pairs : List (String × String)) :
    (ofPairs pairs).occurrences.Perm (pairs.map given) := by
  induction pairs using List.reverseRecOn with
  | nil => exact .nil
  | append_singleton pairs pair ih =>
    obtain ⟨key, text⟩ := pair
    obtain ⟨before, after, hsplit, hadded, -⟩ := occurrences_ofPairs_concat pairs key text
    rw [hadded, List.map_append]
    rw [hsplit] at ih
    exact List.perm_middle.trans ((ih.cons _).trans (List.perm_append_singleton _ _).symm)

end Parameters

namespace FormUrlencoded

lemma pairs_append (first second : List Char) :
    pairs (first ++ '&' :: second) = pairs first ++ pairs second := by
  simp only [pairs, Text.pieces_eq_splitOn, List.splitOn_append_cons_self, List.filter_append,
    List.map_append]

/-- A question mark in front of joined texts is in front of the first. -/
lemma dropMark_append (first second : List Char) :
    dropMark (first ++ '&' :: second) = dropMark first ++ '&' :: second := by
  cases first with
  | nil => rfl
  | cons c rest =>
    by_cases h : c = '?'
    · subst h
      rfl
    · rw [dropMark_of_head?_ne (by simpa using h), dropMark_of_head?_ne (by simpa using h)]

end FormUrlencoded

namespace Parameters

open FormUrlencoded

/-- Joining query strings merges their parameters, whatever the strings hold: the entries of the
second are inserted into those of the first. The texts of a query string are those of its pieces
that are not empty, neither more nor fewer; a question mark in front belongs to no piece. -/
theorem joined_query_strings_merge :
    (∀ first second : String, second.toList.head? ≠ some '?' →
      ofQueryString (first ++ "&" ++ second) =
        (ofQueryString first).insertAll (ofQueryString second)) ∧
    (∀ query : String,
      let pieces := ((dropMark query.toList).splitOn '&').filter fun piece => !piece.isEmpty
      (ofQueryString query).occurrences.length = pieces.length ∧
      (ofQueryString query).occurrences.Perm (pieces.map fun piece => given (pair piece))) := by
  constructor
  · intro first second hmark
    have htext : (first ++ "&" ++ second).toList = first.toList ++ '&' :: second.toList := by
      simp
    rw [ofQueryString, htext, dropMark_append, pairs_append, ofPairs_append, ofQueryString,
      ofQueryString, dropMark_of_head?_ne hmark]
  · intro query
    have hpairs : pairs (dropMark query.toList) =
        (((dropMark query.toList).splitOn '&').filter fun piece => !piece.isEmpty).map pair := by
      rw [pairs, Text.pieces_eq_splitOn]
    have hperm := occurrences_ofPairs_perm (pairs (dropMark query.toList))
    rw [hpairs, List.map_map] at hperm
    exact ⟨by simpa [ofQueryString, hpairs] using hperm.length_eq,
      by rw [ofQueryString, hpairs]; exact hperm⟩

/-- An escape that is cut at the seam, empty pieces, and names that occur on both sides. -/
theorem joined_query_strings_merge_at_escape :
    let first := "?a=1&b[]=%4"
    let second := "1&a[]=x&&b=%zz=&"
    second.toList.head? ≠ some '?' ∧
      ofQueryString (first ++ "&" ++ second) =
        (ofQueryString first).insertAll (ofQueryString second) ∧
      ofQueryString (first ++ "&" ++ second) =
        ⟨[("a", .multi ["1", "x"]), ("b", .multi ["%4", "%zz="]), ("1", .single "")]⟩ := by
  intro first second
  have hmark : second.toList.head? ≠ some '?' := by decide
  exact ⟨hmark, joined_query_strings_merge.1 first second hmark, by decide⟩

end Parameters

end ParamQuery
