import ParamQuery.Parameters
import Mathlib.Data.List.DropRight
import Mathlib.Data.List.Nodup
import Mathlib.Tactic.Lemma

/-!
# Parameters and the edits that made them

Parameters are made by a run of edits: pairs are pushed, entries inserted and reserved names
taken out. What they hold for a name is what the edits gave for it since the name was last taken
out, in the order in which it was given. The parameters of a list of pairs are the pairs grouped
by the names of their keys.
-/

namespace ParamQuery

namespace ParamValue

/-- What the values given for a name, one after the other, add up to. -/
def gather (given : List ParamValue) : Option ParamValue :=
  given.foldl (fun known value => some (known.elim value (·.absorb value))) none

lemma gather_concat (given : List ParamValue) (value : ParamValue) :
    gather (given ++ [value]) = some ((gather given).elim value (·.absorb value)) := by
  rw [gather, List.foldl_append]
  rfl

lemma gather_eq_none_iff {given : List ParamValue} : gather given = none ↔ given = [] := by
  rcases List.eq_nil_or_concat given with rfl | ⟨init, last, rfl⟩
  · simp [gather]
  · simp [gather_concat]

lemma texts_gather (given : List ParamValue) :
    (gather given).elim [] texts = given.flatMap texts := by
  induction given using List.reverseRecOn with
  | nil => rfl
  | append_singleton given last ih =>
    rw [gather_concat, List.flatMap_append, ← ih]
    cases gather given <;> simp

lemma absorb_ne_single {value other : ParamValue} (h : other.texts ≠ []) (text : String) :
    value.absorb other ≠ .single text := by
  rw [absorb]
  split
  case h_1 hnil => exact absurd hnil h
  case h_2 => exact fun hsingle => by cases hsingle

/-- Values that all hold a text add up to a single one only if there is no other. -/
lemma gather_eq_single_iff {given : List ParamValue} (h : ∀ value ∈ given, value.texts ≠ [])
    (text : String) : gather given = some (.single text) ↔ given = [.single text] := by
  rcases List.eq_nil_or_concat given with rfl | ⟨init, last, rfl⟩
  · simp [gather]
  · have hlast : last.texts ≠ [] := h last (by simp)
    rw [List.concat_eq_append, gather_concat, Option.some.injEq]
    cases hinit : gather init with
    | none => simp [gather_eq_none_iff.mp hinit]
    | some known =>
      have habsorb : known.absorb last ≠ .single text := absorb_ne_single hlast text
      have hne : init ≠ [] := by
        intro hnil
        rw [gather_eq_none_iff.mpr hnil] at hinit
        cases hinit
      simp [habsorb, hne, List.append_eq_singleton_iff]

end ParamValue

namespace Parameters

/-- What one pair gives: a list if its key is a list key. -/
def pairValue (key text : String) : ParamValue :=
  if (listName? key).isSome then .multi [text] else .single text

lemma push_eq_insert (params : Parameters) (key text : String) :
    params.push key text = params.insert (baseName key) (pairValue key text) := by
  rw [push, baseName, pairValue]
  cases listName? key <;> rfl

lemma texts_pairValue (key text : String) : (pairValue key text).texts = [text] := by
  rw [pairValue]
  split <;> rfl

lemma pairValue_eq_single_iff {key text other : String} :
    pairValue key text = .single other ↔ text = other ∧ ∀ name, key ≠ name ++ "[]" := by
  have hkey : listName? key = none ↔ ∀ name, key ≠ name ++ "[]" := by
    rw [Option.eq_none_iff_forall_ne_some]
    exact forall_congr' fun name => not_congr listName?_eq_some_iff
  rw [← hkey, pairValue]
  cases listName? key <;> simp

lemma length_occurrences_insert (params : Parameters) (name : String) (value : ParamValue) :
    (params.insert name value).occurrences.length =
      params.occurrences.length + value.texts.length := by
  obtain ⟨entries⟩ := params
  simp only [insert, occurrences]
  induction entries with
  | nil => simp [insertEntry]
  | cons entry rest ih =>
    obtain ⟨known, existing⟩ := entry
    rw [insertEntry]
    split
    · simp only [List.flatMap_cons, List.length_append, List.length_map, ParamValue.texts_absorb]
      omega
    · rw [List.flatMap_cons, List.length_append, ih, List.flatMap_cons, List.length_append]
      omega

lemma nodup_names_insert {params : Parameters} (h : params.names.Nodup) (name : String)
    (value : ParamValue) : (params.insert name value).names.Nodup := by
  rw [names_insert]
  split
  · exact h
  · rename_i hnew
    rw [← List.concat_eq_append]
    exact List.Nodup.concat hnew h

lemma nodup_names_without {params : Parameters} (h : params.names.Nodup)
    (reserved : ReservedNames) : (params.without reserved).names.Nodup := by
  rw [names_without]
  exact h.filter _

/-- The texts that parameters hold for a name; none if it is not there. -/
def textsOf (params : Parameters) (name : String) : List String :=
  (params.get? name).elim [] ParamValue.texts

lemma textsOf_of_mem {params : Parameters} (h : params.names.Nodup) {name : String}
    {value : ParamValue} (hmem : (name, value) ∈ params.entries) :
    params.textsOf name = value.texts := by
  rw [textsOf, get?_eq_some_of_mem h hmem]
  rfl

lemma first?_eq_head?_textsOf (params : Parameters) (name : String) :
    params.first? name = (params.textsOf name).head? := by
  rw [first?, textsOf]
  cases params.get? name <;> rfl

lemma textsOf_without (params : Parameters) (reserved : ReservedNames) (name : String) :
    (params.without reserved).textsOf name =
      if reserved.contains name then [] else params.textsOf name := by
  rw [textsOf, get?_without]
  split <;> rfl

/-- Where names are distinct, the occurrences of a name are the texts held for it. -/
lemma filter_occurrences {params : Parameters} (h : params.names.Nodup) (name : String) :
    params.occurrences.filter (fun occurrence => occurrence.name == name) =
      (params.textsOf name).map fun raw => ⟨name, raw⟩ := by
  obtain ⟨entries⟩ := params
  simp only [names, occurrences, textsOf, get?] at h ⊢
  induction entries with
  | nil => rfl
  | cons entry rest ih =>
    obtain ⟨known, value⟩ := entry
    rw [List.map_cons, List.nodup_cons] at h
    rw [List.flatMap_cons, List.filter_append, ih h.2, lookup_cons_eq]
    by_cases hname : name = known
    · subst hname
      -- the name has no second entry, so the rest adds no occurrence
      have hrest : rest.lookup name = none := by
        rw [List.lookup_eq_none_iff]
        intro entry hentry
        have hne : entry.1 ≠ name := by
          rintro rfl
          exact h.1 (List.mem_map.mpr ⟨entry, hentry, rfl⟩)
        simpa using Ne.symm hne
      simp [hrest, List.filter_map, Function.comp_def]
    · have hne : known ≠ name := Ne.symm hname
      simp [hname, hne, List.filter_map, Function.comp_def]

/-- A change to parameters. -/
inductive Edit where
  | push (key text : String)
  | insert (name : String) (value : ParamValue)
  | without (reserved : ReservedNames)

namespace Edit

def apply (params : Parameters) : Edit → Parameters
  | push key text => params.push key text
  | insert name value => params.insert name value
  | without reserved => params.without reserved

/-- What an edit gives for a name. -/
def given? (name : String) : Edit → Option ParamValue
  | push key text => if baseName key = name then some (pairValue key text) else none
  | insert known value => if known = name then some value else none
  | without _ => none

def removes (name : String) : Edit → Bool
  | without reserved => reserved.contains name
  | _ => false

lemma nodup_names_apply {params : Parameters} (h : params.names.Nodup) (edit : Edit) :
    (edit.apply params).names.Nodup := by
  cases edit with
  | push key text =>
    rw [apply, push_eq_insert]
    exact nodup_names_insert h _ _
  | insert name value => exact nodup_names_insert h name value
  | without reserved => exact nodup_names_without h reserved

/-- One edit: a name that it removes is gone, and what it gives is absorbed. -/
lemma get?_apply (params : Parameters) (edit : Edit) (name : String) :
    (edit.apply params).get? name =
      if edit.removes name then none
      else ((edit.given? name).map fun value =>
        (params.get? name).elim value (·.absorb value)).or (params.get? name) := by
  cases edit with
  | push key text =>
    rw [apply, push_eq_insert, get?_insert]
    by_cases h : baseName key = name
    · simp [removes, given?, h]
    · have h' : name ≠ baseName key := Ne.symm h
      simp [removes, given?, h, h']
  | insert known value =>
    rw [apply, get?_insert]
    by_cases h : known = name
    · simp [removes, given?, h]
    · have h' : name ≠ known := Ne.symm h
      simp [removes, given?, h, h']
  | without reserved =>
    rw [apply, get?_without]
    rfl

end Edit

/-- The parameters that a run of edits makes out of none. -/
def edited (edits : List Edit) : Parameters := edits.foldl Edit.apply {}

/-- The edits after the last one that removed the name. -/
def sinceRemoval (name : String) (edits : List Edit) : List Edit :=
  edits.rtakeWhile fun edit => !edit.removes name

lemma edited_concat (edits : List Edit) (edit : Edit) :
    edited (edits ++ [edit]) = edit.apply (edited edits) := by
  rw [edited, List.foldl_append]
  rfl

lemma sinceRemoval_concat (name : String) (edits : List Edit) (edit : Edit) :
    sinceRemoval name (edits ++ [edit]) =
      if edit.removes name then [] else sinceRemoval name edits ++ [edit] := by
  rw [sinceRemoval, List.rtakeWhile_concat]
  cases edit.removes name <;> rfl

theorem nodup_names_edited (edits : List Edit) : (edited edits).names.Nodup := by
  induction edits using List.reverseRecOn with
  | nil => exact List.nodup_nil
  | append_singleton edits edit ih =>
    rw [edited_concat]
    exact edit.nodup_names_apply ih

/-- A run of edits leaves for a name what it gave since the name was last removed. -/
theorem get?_edited (edits : List Edit) (name : String) :
    (edited edits).get? name =
      ParamValue.gather ((sinceRemoval name edits).filterMap (Edit.given? name)) := by
  induction edits using List.reverseRecOn with
  | nil => rfl
  | append_singleton edits edit ih =>
    rw [edited_concat, Edit.get?_apply, ih, sinceRemoval_concat]
    -- a removal forgets what was given before it, any other edit comes on top
    by_cases hremoves : edit.removes name = true
    · rw [if_pos hremoves, if_pos hremoves]
      rfl
    · rw [if_neg hremoves, if_neg hremoves, List.filterMap_append]
      cases hgiven : edit.given? name with
      | none => simp [hgiven]
      | some value => simp [hgiven, ParamValue.gather_concat]

lemma textsOf_edited (edits : List Edit) (name : String) :
    (edited edits).textsOf name =
      ((sinceRemoval name edits).filterMap (Edit.given? name)).flatMap ParamValue.texts := by
  rw [textsOf, get?_edited, ParamValue.texts_gather]

/-! ### The parameters of a list of pairs -/

lemma ofPairs_concat (pairs : List (String × String)) (pair : String × String) :
    ofPairs (pairs ++ [pair]) = (ofPairs pairs).push pair.1 pair.2 := by
  rw [ofPairs, List.foldl_append]
  rfl

lemma ofPairs_eq_edited (pairs : List (String × String)) :
    ofPairs pairs = edited (pairs.map fun pair => .push pair.1 pair.2) := by
  rw [edited, List.foldl_map]
  rfl

lemma eraseDups_concat (names : List String) (name : String) :
    (names ++ [name]).eraseDups =
      if name ∈ names then names.eraseDups else names.eraseDups ++ [name] := by
  rw [List.eraseDups_append, List.removeAll]
  by_cases h : name ∈ names <;> simp [h, List.eraseDups_cons]

theorem names_ofPairs (pairs : List (String × String)) :
    (ofPairs pairs).names = (pairs.map fun pair => baseName pair.1).eraseDups := by
  induction pairs using List.reverseRecOn with
  | nil => rfl
  | append_singleton pairs pair ih =>
    rw [ofPairs_concat, push_eq_insert, names_insert, ih, List.map_append, List.map_singleton,
      eraseDups_concat]
    simp only [List.mem_eraseDups]

theorem get?_ofPairs (pairs : List (String × String)) (name : String) :
    (ofPairs pairs).get? name = ParamValue.gather
      ((pairs.filter fun pair => baseName pair.1 == name).map fun pair =>
        pairValue pair.1 pair.2) := by
  have hkept : sinceRemoval name (pairs.map fun pair => Edit.push pair.1 pair.2) =
      pairs.map fun pair => Edit.push pair.1 pair.2 := by
    rw [sinceRemoval, List.rtakeWhile_eq_self_iff]
    intro edit hedit
    obtain ⟨pair, -, rfl⟩ := List.mem_map.mp hedit
    rfl
  rw [ofPairs_eq_edited, get?_edited, hkept, List.filterMap_map, ← List.filterMap_eq_map,
    List.filterMap_filter]
  simp [Function.comp_def, Edit.given?]

/-- Every pair is an occurrence, and there are no others. -/
theorem length_occurrences_ofPairs (pairs : List (String × String)) :
    (ofPairs pairs).occurrences.length = pairs.length := by
  induction pairs using List.reverseRecOn with
  | nil => rfl
  | append_singleton pairs pair ih =>
    rw [ofPairs_concat, push_eq_insert, length_occurrences_insert, texts_pairValue, ih,
      List.length_append]
    rfl

lemma nodup_names_ofPairs (pairs : List (String × String)) : (ofPairs pairs).names.Nodup := by
  rw [ofPairs_eq_edited]
  exact nodup_names_edited _

theorem textsOf_ofPairs (pairs : List (String × String)) (name : String) :
    (ofPairs pairs).textsOf name =
      (pairs.filter fun pair => baseName pair.1 == name).map Prod.snd := by
  rw [textsOf, get?_ofPairs, ParamValue.texts_gather, List.flatMap_map, List.map_eq_flatMap]
  simp only [texts_pairValue]

/-- Two pairs of one name make a list, and so does a list key. -/
lemma single_iff_of_mem_ofPairs {pairs : List (String × String)} {name : String}
    {value : ParamValue} (h : (name, value) ∈ (ofPairs pairs).entries) :
    (∃ text, value = .single text) ↔
      ∃ pair, pairs.filter (fun pair => baseName pair.1 == name) = [pair] ∧
        ∀ stem, pair.1 ≠ stem ++ "[]" := by
  have hgather := get?_eq_some_of_mem (nodup_names_ofPairs pairs) h
  rw [get?_ofPairs] at hgather
  have hfull : ∀ given ∈ (pairs.filter fun pair => baseName pair.1 == name).map
      fun pair => pairValue pair.1 pair.2, given.texts ≠ [] := by
    intro given hgiven
    obtain ⟨pair, -, rfl⟩ := List.mem_map.mp hgiven
    simp [texts_pairValue]
  constructor
  · rintro ⟨text, rfl⟩
    have hone := (ParamValue.gather_eq_single_iff hfull text).mp hgather
    obtain ⟨pair, hown, hpair⟩ := List.map_eq_singleton_iff.mp hone
    exact ⟨pair, hown, (pairValue_eq_single_iff.mp hpair).2⟩
  · rintro ⟨pair, hown, hkey⟩
    have hpair : pairValue pair.1 pair.2 = .single pair.2 :=
      pairValue_eq_single_iff.mpr ⟨rfl, hkey⟩
    rw [hown, List.map_singleton, hpair] at hgather
    exact ⟨pair.2, (Option.some.inj hgather).symm⟩

/-- Grouping loses, invents and reorders nothing. The names of a list of pairs are those of its
keys, in the order in which they are first seen; an entry holds the texts of the pairs of its
name, in order, and is single just if there is one such pair and its key is no list key. And
whatever edits make parameters, their names are distinct, a name is there just if an edit gave
something for it since it was last removed, and its texts are all those given since then. -/
theorem entries_group_texts :
    (∀ pairs : List (String × String),
      (ofPairs pairs).names = (pairs.map fun pair => baseName pair.1).eraseDups ∧
      (ofPairs pairs).names.Nodup ∧
      ∀ name value, (name, value) ∈ (ofPairs pairs).entries →
        let own := pairs.filter fun pair => baseName pair.1 == name
        value.texts = own.map Prod.snd ∧
        ((∃ text, value = .single text) ↔
          ∃ pair, own = [pair] ∧ ∀ stem, pair.1 ≠ stem ++ "[]")) ∧
    (∀ edits : List Edit,
      (edited edits).names.Nodup ∧
      (∀ name, name ∈ (edited edits).names ↔
        ∃ edit ∈ sinceRemoval name edits, (edit.given? name).isSome = true) ∧
      ∀ name value, (name, value) ∈ (edited edits).entries →
        value.texts =
          ((sinceRemoval name edits).filterMap (Edit.given? name)).flatMap ParamValue.texts) := by
  refine ⟨fun pairs => ⟨names_ofPairs pairs, nodup_names_ofPairs pairs, ?_⟩,
    fun edits => ⟨nodup_names_edited edits, ?_, ?_⟩⟩
  · intro name value hmem
    refine ⟨?_, single_iff_of_mem_ofPairs hmem⟩
    rw [← textsOf_of_mem (nodup_names_ofPairs pairs) hmem, textsOf_ofPairs]
  · intro name
    rw [mem_names_iff, get?_edited, Option.isSome_iff_ne_none, Ne, ParamValue.gather_eq_none_iff,
      List.filterMap_eq_nil_iff]
    simp [Option.isSome_iff_ne_none]
  · intro name value hmem
    rw [← textsOf_of_mem (nodup_names_edited edits) hmem, textsOf_edited]

/-- Plain and list keys of one name in turn, and a name that is removed and given anew. -/
theorem entries_group_texts_interleaved :
    let pairs := [("sort", "a"), ("tag[]", "x"), ("sort[]", "b"), ("page", "2"), ("tag", "y")]
    let edits : List Edit := [.push "tag" "w", .insert "page" (.multi ["1", "2"]), .without {},
      .insert "tag" (.multi []), .push "page[]" "3", .push "tag[]" "x"]
    (("sort", .multi ["a", "b"]) ∈ (ofPairs pairs).entries ∧ ["a", "b"] =
        (pairs.filter fun pair => baseName pair.1 == "sort").map Prod.snd) ∧
      (("page", .single "2") ∈ (ofPairs pairs).entries ∧
        ∃ pair, (pairs.filter fun pair => baseName pair.1 == "page") = [pair] ∧
          ∀ stem, pair.1 ≠ stem ++ "[]") ∧
      (("page", .multi ["3"]) ∈ (edited edits).entries ∧ ["3"] =
        ((sinceRemoval "page" edits).filterMap (Edit.given? "page")).flatMap ParamValue.texts) := by
  intro pairs edits
  have hsort : ("sort", .multi ["a", "b"]) ∈ (ofPairs pairs).entries := by decide
  have hsingle : ("page", .single "2") ∈ (ofPairs pairs).entries := by decide
  have hpage : ("page", .multi ["3"]) ∈ (edited edits).entries := by decide
  have hpairs := entries_group_texts.1 pairs
  exact ⟨⟨hsort, (hpairs.2.2 _ _ hsort).1⟩, ⟨hsingle, (hpairs.2.2 _ _ hsingle).2.mp ⟨_, rfl⟩⟩,
    hpage, (entries_group_texts.2 edits).2.2 _ _ hpage⟩

end Parameters

end ParamQuery
