import ParamQuery.Text.Blank

/-!
# Cutting text at a separator

`cut` divides a text at the first separator and `pieces` at every one. Joining the parts with
the separator gives the text back. `items` is the reading of a comma-separated list.
-/

namespace ParamQuery.Text

/-- The parts before and after the first separator. -/
def cut (separator : Char) : List Char → Option (List Char × List Char)
  | [] => none
  | c :: rest =>
    if c = separator then some ([], rest)
    else (cut separator rest).map fun (before, after) => (c :: before, after)

/-- The parts between separators: one more than there are separators. -/
def pieces (separator : Char) : List Char → List (List Char)
  | [] => [[]]
  | c :: rest =>
    if c = separator then [] :: pieces separator rest
    else match pieces separator rest with
      | [] => [[c]]
      | piece :: more => (c :: piece) :: more

/-- The trimmed parts of a comma-separated list that are not blank. -/
def items (text : List Char) : List (List Char) :=
  ((pieces ',' text).map trim).filter (fun item => !item.isEmpty)

theorem cut_eq_some_iff {separator : Char} {text before after : List Char} :
    cut separator text = some (before, after) ↔
      text = before ++ separator :: after ∧ separator ∉ before := by
  induction text generalizing before with
  | nil => simp [cut]
  | cons c rest ih =>
    by_cases h : c = separator
    · subst h
      cases before <;> simp_all [cut]
    · cases before with
      | nil => simp [cut, h]
      | cons b before =>
        simp only [cut, h, if_false, Option.map_eq_some_iff, Prod.mk.injEq, List.cons.injEq,
          List.cons_append, List.mem_cons, not_or, Prod.exists]
        constructor
        · rintro ⟨x, y, hxy, ⟨rfl, rfl⟩, rfl⟩
          have := ih.mp hxy
          exact ⟨⟨rfl, this.1⟩, fun e => h e.symm, this.2⟩
        · rintro ⟨⟨rfl, hrest⟩, _, hb⟩
          exact ⟨before, after, ih.mpr ⟨hrest, hb⟩, ⟨rfl, rfl⟩, rfl⟩

theorem cut_eq_none_iff {separator : Char} {text : List Char} :
    cut separator text = none ↔ separator ∉ text := by
  induction text with
  | nil => simp [cut]
  | cons c rest ih =>
    by_cases h : c = separator
    · simp [cut, h]
    · have h' : separator ≠ c := fun e => h e.symm
      simp [cut, h, h', ih]

theorem pieces_ne_nil (separator : Char) (text : List Char) : pieces separator text ≠ [] := by
  cases text with
  | nil => simp [pieces]
  | cons c rest =>
    simp only [pieces]
    split
    · simp
    · split <;> simp

theorem intercalate_pieces (separator : Char) (text : List Char) :
    [separator].intercalate (pieces separator text) = text := by
  induction text with
  | nil => simp [pieces]
  | cons c rest ih =>
    obtain ⟨piece, more, h⟩ := List.exists_cons_of_ne_nil (pieces_ne_nil separator rest)
    rw [h] at ih
    by_cases hc : c = separator
    · simp only [pieces, hc, if_true, h]
      rw [List.intercalate_cons_cons, ih]
      rfl
    · simp only [pieces, hc, if_false, h]
      cases more with
      | nil => simpa using ih
      | cons next more =>
        rw [List.intercalate_cons_cons] at ih ⊢
        simp [← ih]

theorem pieces_eq_singleton {separator : Char} {text : List Char} (h : separator ∉ text) :
    pieces separator text = [text] := by
  induction text with
  | nil => rfl
  | cons c rest ih =>
    rw [List.mem_cons, not_or] at h
    rw [pieces, if_neg (Ne.symm h.1), ih h.2]

theorem pieces_append_cons {separator : Char} {before : List Char} (after : List Char)
    (h : separator ∉ before) :
    pieces separator (before ++ separator :: after) = before :: pieces separator after := by
  induction before with
  | nil => rw [List.nil_append, pieces, if_pos rfl]
  | cons c rest ih =>
    rw [List.mem_cons, not_or] at h
    rw [List.cons_append, pieces, if_neg (Ne.symm h.1), ih h.2]

/-- Parts without the separator are the pieces of their joining. -/
theorem pieces_intercalate {separator : Char} (first : List Char) (more : List (List Char))
    (h : ∀ part ∈ first :: more, separator ∉ part) :
    pieces separator ([separator].intercalate (first :: more)) = first :: more := by
  have hfirst := h first List.mem_cons_self
  induction more generalizing first with
  | nil =>
    rw [List.intercalate_singleton]
    exact pieces_eq_singleton hfirst
  | cons next more ih =>
    have hnext : ∀ part ∈ next :: more, separator ∉ part := (List.forall_mem_cons.mp h).2
    have hmore := ih next hnext (hnext next List.mem_cons_self)
    rw [List.intercalate_cons_cons, List.append_assoc]
    exact (pieces_append_cons _ hfirst).trans (congrArg (first :: ·) hmore)

theorem notMem_of_mem_pieces {separator : Char} {text piece : List Char}
    (h : piece ∈ pieces separator text) : separator ∉ piece := by
  induction text generalizing piece with
  | nil =>
    obtain rfl := List.mem_singleton.mp h
    exact List.not_mem_nil
  | cons c rest ih =>
    obtain ⟨first, more, hrest⟩ := List.exists_cons_of_ne_nil (pieces_ne_nil separator rest)
    rw [hrest] at ih
    have hfirst := ih List.mem_cons_self
    by_cases hc : c = separator
    · rw [pieces, if_pos hc, hrest] at h
      rcases List.mem_cons.mp h with rfl | hmore
      · exact List.not_mem_nil
      · exact ih hmore
    · simp only [pieces, hc, if_false, hrest] at h
      rcases List.mem_cons.mp h with rfl | hmore
      · exact fun hmem => (List.mem_cons.mp hmem).elim (fun e => hc e.symm) hfirst
      · exact ih (List.mem_cons_of_mem first hmore)

/-- The items of a list have a first character, no outer blanks and no comma. -/
theorem of_mem_items {text item : List Char} (h : item ∈ items text) :
    item ≠ [] ∧ trim item = item ∧ ',' ∉ item := by
  obtain ⟨hmem, hne⟩ := List.mem_filter.mp h
  obtain ⟨piece, hpiece, rfl⟩ := List.mem_map.mp hmem
  exact ⟨by simpa using hne, trim_trim piece,
    fun hcomma => notMem_of_mem_pieces hpiece (mem_of_mem_trim hcomma)⟩

/-- Parts joined by commas are read back without their outer blanks. -/
theorem items_intercalate {parts : List (List Char)}
    (h : ∀ part ∈ parts, trim part ≠ [] ∧ ',' ∉ part) :
    items ([','].intercalate parts) = parts.map trim := by
  cases parts with
  | nil => rfl
  | cons first more =>
    rw [items, pieces_intercalate first more fun part hpart => (h part hpart).2]
    apply List.filter_eq_self.mpr
    intro item hitem
    obtain ⟨part, hpart, rfl⟩ := List.mem_map.mp hitem
    simpa using (h part hpart).1

/-- The pieces of a text are the only parts without the separator that it is joined from. -/
theorem pieces_eq_iff {separator : Char} {text : List Char} {parts : List (List Char)} :
    pieces separator text = parts ↔
      parts ≠ [] ∧ (∀ part ∈ parts, separator ∉ part) ∧ [separator].intercalate parts = text := by
  constructor
  · rintro rfl
    exact ⟨pieces_ne_nil separator text, fun part hpart => notMem_of_mem_pieces hpart,
      intercalate_pieces separator text⟩
  · rintro ⟨hne, hplain, rfl⟩
    obtain ⟨first, more, rfl⟩ := List.exists_cons_of_ne_nil hne
    exact pieces_intercalate first more hplain

theorem count_of_cut {separator : Char} {text before after : List Char}
    (h : cut separator text = some (before, after)) :
    text.count separator = after.count separator + 1 := by
  obtain ⟨rfl, hbefore⟩ := cut_eq_some_iff.mp h
  rw [List.count_append, List.count_eq_zero_of_not_mem hbefore, List.count_cons_self, Nat.zero_add]

/-- A text is divided at its first separators, of which there are as many as the number says. Only
the last part may have more of them. -/
inductive Divides (separator : Char) : Nat → List Char → List (List Char) → Prop
  | last (text : List Char) : Divides separator 0 text [text]
  | cons {count : Nat} {part rest : List Char} {parts : List (List Char)}
      (hpart : separator ∉ part) (hrest : Divides separator count rest parts) :
      Divides separator (count + 1) (part ++ separator :: rest) (part :: parts)

namespace Divides

variable {separator : Char} {text : List Char} {parts : List (List Char)}

theorem zero_iff : Divides separator 0 text parts ↔ parts = [text] := by
  constructor
  · intro h
    cases h
    rfl
  · rintro rfl
    exact .last text

theorem succ_iff {count : Nat} :
    Divides separator (count + 1) text parts ↔
      ∃ part rest more, cut separator text = some (part, rest) ∧
        Divides separator count rest more ∧ parts = part :: more := by
  simp only [cut_eq_some_iff]
  constructor
  · intro h
    cases h with
    | cons hpart hrest => exact ⟨_, _, _, ⟨rfl, hpart⟩, hrest, rfl⟩
  · rintro ⟨part, rest, more, ⟨rfl, hpart⟩, hrest, rfl⟩
    exact .cons hpart hrest

theorem length_eq {count : Nat} (h : Divides separator count text parts) :
    parts.length = count + 1 := by
  induction h with
  | last => rfl
  | cons _ _ ih => rw [List.length_cons, ih]

/-- There is a division exactly if there are enough separators. -/
theorem exists_iff {count : Nat} :
    (∃ parts, Divides separator count text parts) ↔ count ≤ text.count separator := by
  induction count generalizing text with
  | zero => simp [zero_iff]
  | succ count ih =>
    cases hcut : cut separator text with
    | none =>
      have hcount := List.count_eq_zero.mpr (cut_eq_none_iff.mp hcut)
      simp [succ_iff, hcut, hcount]
    | some found =>
      obtain ⟨part, rest⟩ := found
      rw [count_of_cut hcut, Nat.add_le_add_iff_right, ← ih]
      constructor
      · rintro ⟨parts, hparts⟩
        obtain ⟨_, _, more, hfound, hmore, rfl⟩ := succ_iff.mp hparts
        cases hcut.symm.trans hfound
        exact ⟨more, hmore⟩
      · rintro ⟨more, hmore⟩
        exact ⟨part :: more, succ_iff.mpr ⟨part, rest, more, hcut, hmore, rfl⟩⟩

end Divides

end ParamQuery.Text
