import ParamQuery.Proofs.ReservedPairs

/-!
# The order of occurrences

Occurrences stand entry by entry. So keeping some names keeps their occurrences in order, a pair
that is pushed comes in right after the other occurrences of its name, and grouping the occurrences
of parameters again leaves them where they are.
-/

namespace ParamQuery

/-- The pair that an occurrence stands for. -/
def Occurrence.pair (occurrence : Occurrence) : String × String := (occurrence.name, occurrence.raw)

namespace Parameters

variable {params : Parameters} {name : String}

lemma baseName_of_plain (h : listName? name = none) : baseName name = name := by
  rw [baseName, h]
  rfl

lemma occurrences_append (first second : List (String × ParamValue)) :
    (mk (first ++ second)).occurrences = (mk first).occurrences ++ (mk second).occurrences :=
  List.flatMap_append

lemma occurrences_singleton (name : String) (value : ParamValue) :
    (mk [(name, value)]).occurrences = value.texts.map fun raw => ⟨name, raw⟩ := by
  simp [occurrences]

/-- An entry is kept or dropped as a whole by its name. -/
lemma filter_name_occurrences (keep : String → Bool) (params : Parameters) :
    params.occurrences.filter (fun occurrence => keep occurrence.name) =
      (mk (params.entries.filter fun entry => keep entry.1)).occurrences := by
  obtain ⟨entries⟩ := params
  induction entries with
  | nil => rfl
  | cons entry rest ih =>
    obtain ⟨known, value⟩ := entry
    have hcons : (mk ((known, value) :: rest)).occurrences =
        (value.texts.map fun raw => ⟨known, raw⟩) ++ (mk rest).occurrences := rfl
    rw [hcons, List.filter_append, ih, List.filter_map]
    by_cases hkeep : keep known = true
    · simp [hkeep, Function.comp_def, occurrences]
    · simp [hkeep, Function.comp_def]

lemma mem_names_of_mem_occurrences {occurrence : Occurrence} (h : occurrence ∈ params.occurrences) :
    occurrence.name ∈ params.names := by
  obtain ⟨entry, hentry, hmem⟩ := List.mem_flatMap.mp h
  obtain ⟨raw, -, rfl⟩ := List.mem_map.mp hmem
  exact List.mem_map.mpr ⟨entry, hentry, rfl⟩

/-! ### Pushing a pair -/

lemma insertEntry_append_of_notMem {before : List (String × ParamValue)}
    (hnew : name ∉ before.map Prod.fst) (value : ParamValue) (rest : List (String × ParamValue)) :
    insertEntry name value (before ++ rest) = before ++ insertEntry name value rest := by
  induction before with
  | nil => rfl
  | cons entry before ih =>
    obtain ⟨known, existing⟩ := entry
    rw [List.map_cons, List.mem_cons, not_or] at hnew
    rw [List.cons_append, insertEntry, if_neg (Ne.symm hnew.1), ih hnew.2]
    rfl

lemma push_of_new (hnew : name ∉ params.names) (hplain : listName? name = none) (text : String) :
    params.push name text = mk (params.entries ++ [(name, .single text)]) := by
  have happend := insertEntry_append_of_notMem hnew (.single text) []
  rw [List.append_nil] at happend
  rw [push, hplain]
  exact congrArg mk happend

/-- Further texts for the last entry go to its end. -/
lemma occurrences_pushAll_of_last {before : List (String × ParamValue)}
    (hnew : name ∉ before.map Prod.fst) (hplain : listName? name = none) (value : ParamValue)
    (texts : List String) :
    (texts.foldl (fun params text => params.push name text)
        (mk (before ++ [(name, value)]))).occurrences =
      (mk (before ++ [(name, value)])).occurrences ++ texts.map fun raw => ⟨name, raw⟩ := by
  induction texts generalizing value with
  | nil => simp
  | cons text rest ih =>
    have hpush : (mk (before ++ [(name, value)])).push name text =
        mk (before ++ [(name, value.absorb (.single text))]) := by
      rw [push, hplain]
      exact congrArg mk ((insertEntry_append_of_notMem hnew _ _).trans (by simp [insertEntry]))
    have htexts : (ParamValue.single text).texts = [text] := rfl
    rw [List.foldl_cons, hpush, ih]
    simp [occurrences_append, occurrences_singleton, htexts]

/-- The texts of a new name make one entry at the end. -/
lemma occurrences_pushAll_of_new (hnew : name ∉ params.names) (hplain : listName? name = none)
    (text : String) (rest : List String) :
    ((text :: rest).foldl (fun params text => params.push name text) params).occurrences =
      params.occurrences ++ (text :: rest).map fun raw => ⟨name, raw⟩ := by
  rw [List.foldl_cons, push_of_new hnew hplain, occurrences_pushAll_of_last hnew hplain,
    occurrences_append, occurrences_singleton, List.append_assoc]
  rfl

/-- What is inserted comes at the end, or right after texts that its name has already. -/
lemma occurrences_insert_split {entries : List (String × ParamValue)}
    (hfull : ∀ entry ∈ entries, entry.2.texts ≠ []) (name : String) (value : ParamValue) :
    ∃ before after, (mk entries).occurrences = before ++ after ∧
      (mk (insertEntry name value entries)).occurrences =
        before ++ (value.texts.map fun raw => ⟨name, raw⟩) ++ after ∧
      (after ≠ [] → ∃ raw, ⟨name, raw⟩ ∈ before) := by
  induction entries with
  | nil => exact ⟨[], [], rfl, by simp [insertEntry, occurrences], fun h => absurd rfl h⟩
  | cons entry rest ih =>
    obtain ⟨known, existing⟩ := entry
    obtain ⟨hexisting, hrest⟩ := List.forall_mem_cons.mp hfull
    have hcons : ∀ (value : ParamValue) (tail : List (String × ParamValue)),
        (mk ((known, value) :: tail)).occurrences =
          (value.texts.map fun raw => ⟨known, raw⟩) ++ (mk tail).occurrences := fun _ _ => rfl
    by_cases hname : known = name
    · subst hname
      refine ⟨existing.texts.map fun raw => ⟨known, raw⟩, (mk rest).occurrences, hcons _ _, ?_, ?_⟩
      · rw [insertEntry, if_pos rfl, hcons, ParamValue.texts_absorb, List.map_append]
      · intro _
        obtain ⟨raw, hraw⟩ := List.exists_mem_of_ne_nil _ hexisting
        exact ⟨raw, List.mem_map_of_mem hraw⟩
    · obtain ⟨before, after, hsplit, hinserted, hown⟩ := ih hrest
      refine ⟨(existing.texts.map fun raw => ⟨known, raw⟩) ++ before, after, ?_, ?_, ?_⟩
      · rw [hcons, hsplit, List.append_assoc]
      · rw [insertEntry, if_neg hname, hcons, hinserted]
        simp only [List.append_assoc]
      · intro hafter
        obtain ⟨raw, hraw⟩ := hown hafter
        exact ⟨raw, List.mem_append_right _ hraw⟩

lemma texts_ne_nil_of_mem_ofPairs {pairs : List (String × String)} {value : ParamValue}
    (h : (name, value) ∈ (ofPairs pairs).entries) : value.texts ≠ [] := by
  intro hnil
  have htexts := textsOf_of_mem (nodup_names_ofPairs pairs) h
  have hget := get?_eq_some_of_mem (nodup_names_ofPairs pairs) h
  rw [textsOf_ofPairs, hnil, List.map_eq_nil_iff] at htexts
  rw [get?_ofPairs, htexts] at hget
  cases hget

/-- One more pair is one more occurrence, at the end or after others of its name. -/
theorem occurrences_ofPairs_concat (pairs : List (String × String)) (key text : String) :
    ∃ before after, (ofPairs pairs).occurrences = before ++ after ∧
      (ofPairs (pairs ++ [(key, text)])).occurrences = before ++ ⟨baseName key, text⟩ :: after ∧
      (after ≠ [] → ∃ raw, ⟨baseName key, raw⟩ ∈ before) := by
  obtain ⟨before, after, hsplit, hinserted, hown⟩ := occurrences_insert_split
    (fun _ => texts_ne_nil_of_mem_ofPairs) (baseName key) (pairValue key text)
  refine ⟨before, after, hsplit, ?_, hown⟩
  rw [ofPairs_concat, push_eq_insert, insert, hinserted, texts_pairValue]
  simp

/-- Pairs of one name make one entry, which keeps their order. -/
lemma occurrences_ofPairs_of_name {pairs : List (String × String)}
    (h : ∀ pair ∈ pairs, baseName pair.1 = name) :
    (ofPairs pairs).occurrences = pairs.map fun pair => ⟨name, pair.2⟩ := by
  have hnames : ∀ occurrence ∈ (ofPairs pairs).occurrences, (occurrence.name == name) = true := by
    intro occurrence hmem
    have hname := mem_names_of_mem_occurrences hmem
    rw [names_ofPairs, List.mem_eraseDups] at hname
    obtain ⟨pair, hpair, hbase⟩ := List.mem_map.mp hname
    rw [← hbase, h pair hpair, beq_self_eq_true]
  have hown : pairs.filter (fun pair => baseName pair.1 == name) = pairs :=
    List.filter_eq_self.mpr fun pair hpair => by rw [h pair hpair, beq_self_eq_true]
  rw [← List.filter_eq_self.mpr hnames, filter_occurrences (nodup_names_ofPairs pairs),
    textsOf_ofPairs, hown, List.map_map]
  rfl

/-- Pairs of one name are all kept or all taken out. -/
lemma occurrences_without_of_name {pairs : List (String × String)} (reserved : ReservedNames)
    (h : ∀ pair ∈ pairs, baseName pair.1 = name) :
    ((ofPairs pairs).without reserved).occurrences =
      if reserved.contains name then [] else pairs.map fun pair => ⟨name, pair.2⟩ := by
  have hkept : reserved.directivePairs pairs = pairs.filter fun _ => !reserved.contains name :=
    List.filter_congr fun pair hpair => by rw [h pair hpair]
  rw [without_ofPairs, hkept]
  by_cases hreserved : reserved.contains name = true
  · simp [hreserved, ofPairs, occurrences]
  · simp [hreserved, occurrences_ofPairs_of_name h]

/-- Occurrences that already stand name by name are grouped in the order in which they stand. -/
theorem occurrences_regrouped (hdistinct : params.names.Nodup)
    (hplain : ∀ occurrence ∈ params.occurrences, listName? occurrence.name = none) :
    (ofPairs (params.occurrences.map Occurrence.pair)).occurrences = params.occurrences := by
  obtain ⟨entries⟩ := params
  induction entries using List.reverseRecOn with
  | nil => rfl
  | append_singleton entries entry ih =>
    obtain ⟨name, value⟩ := entry
    simp only [names, List.map_append, List.map_singleton] at hdistinct
    obtain ⟨hbefore, hnew⟩ := List.nodup_append.mp hdistinct
    rw [occurrences_append, occurrences_singleton] at hplain ⊢
    have ih := ih hbefore fun occurrence h => hplain occurrence (List.mem_append_left _ h)
    cases htexts : value.texts with
    | nil => simpa using ih
    | cons text rest =>
      rw [htexts] at hplain
      have hname : listName? name = none := hplain ⟨name, text⟩ (by simp)
      have hfresh : name ∉ (ofPairs ((mk entries).occurrences.map Occurrence.pair)).names := by
        rw [names_ofPairs, List.mem_eraseDups, List.map_map]
        intro hmem
        obtain ⟨occurrence, hoccurrence, hbase⟩ := List.mem_map.mp hmem
        have hkept := hplain occurrence (List.mem_append_left _ hoccurrence)
        rw [Function.comp_apply, Occurrence.pair, baseName_of_plain hkept] at hbase
        have hmember := mem_names_of_mem_occurrences hoccurrence
        rw [hbase] at hmember
        exact hnew.2 name hmember name (by simp) rfl
      have hpushes := occurrences_pushAll_of_new hfresh hname text rest
      rw [ih] at hpushes
      rw [List.map_append, ofPairs, List.foldl_append, List.map_map, List.foldl_map]
      exact hpushes

end Parameters

end ParamQuery
