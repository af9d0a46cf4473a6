import ParamQuery.Lookup

/-!
# Request parameters

Parameters are named entries in first-seen order, each with one or more texts. A key with the
suffix `[]` names a list entry; repeated names are absorbed by the first entry. Three names are
reserved for paging and are never directives.
-/

namespace ParamQuery

inductive ParamValue where
  | single (text : String)
  | multi (texts : List String)
  deriving DecidableEq, Repr

namespace ParamValue

def texts : ParamValue → List String
  | .single text => [text]
  | .multi texts => texts

def first? (value : ParamValue) : Option String := value.texts.head?

/-- Takes up the texts of another value; anything added makes a list. -/
def absorb (value other : ParamValue) : ParamValue :=
  match other.texts with
  | [] => value
  | more => .multi (value.texts ++ more)

@[simp] theorem texts_absorb (value other : ParamValue) :
    (value.absorb other).texts = value.texts ++ other.texts := by
  rw [absorb]
  cases h : other.texts with
  | nil => simp
  | cons text more => simp [texts]

end ParamValue

structure ReservedNames where
  page : String := "page"
  perPage : String := "per_page"
  paginate : String := "paginate"
  deriving DecidableEq, Repr

def ReservedNames.contains (reserved : ReservedNames) (name : String) : Bool :=
  name == reserved.page || name == reserved.perPage || name == reserved.paginate

theorem ReservedNames.contains_iff {reserved : ReservedNames} {name : String} :
    reserved.contains name = true ↔
      name = reserved.page ∨ name = reserved.perPage ∨ name = reserved.paginate := by
  simp [contains, or_assoc]

/-- One text that was given for a name. -/
structure Occurrence where
  name : String
  raw : String
  deriving DecidableEq, Repr

structure Parameters where
  entries : List (String × ParamValue) := []
  deriving DecidableEq, Repr

namespace Parameters

/-- The name of a list key, without its suffix `[]`. -/
def listName? (key : String) : Option String :=
  match key.toList.reverse with
  | ']' :: '[' :: name => some (String.ofList name.reverse)
  | _ => none

def baseName (key : String) : String := (listName? key).getD key

def insertEntry (name : String) (value : ParamValue) :
    List (String × ParamValue) → List (String × ParamValue)
  | [] => [(name, value)]
  | (known, existing) :: rest =>
    if known = name then (known, existing.absorb value) :: rest
    else (known, existing) :: insertEntry name value rest

/-- Adds an entry; a name that is present absorbs the new texts after its own. -/
def insert (params : Parameters) (name : String) (value : ParamValue) : Parameters :=
  ⟨insertEntry name value params.entries⟩

def push (params : Parameters) (key text : String) : Parameters :=
  match listName? key with
  | some name => params.insert name (.multi [text])
  | none => params.insert key (.single text)

def ofPairs (pairs : List (String × String)) : Parameters :=
  pairs.foldl (fun params (key, text) => params.push key text) {}

def get? (params : Parameters) (name : String) : Option ParamValue :=
  params.entries.lookup name

def first? (params : Parameters) (name : String) : Option String :=
  (params.get? name).bind ParamValue.first?

def names (params : Parameters) : List String := params.entries.map Prod.fst

def without (params : Parameters) (reserved : ReservedNames) : Parameters :=
  ⟨params.entries.filter fun entry => !reserved.contains entry.1⟩

/-- Every text with its name: entry by entry, and within an entry in order of arrival. -/
def occurrences (params : Parameters) : List Occurrence :=
  params.entries.flatMap fun (name, value) => value.texts.map fun raw => ⟨name, raw⟩

theorem listName?_eq_some_iff {key name : String} :
    listName? key = some name ↔ key = name ++ "[]" := by
  rw [← String.toList_inj, String.toList_append, listName?]
  constructor
  · intro h
    split at h
    case h_1 rest hrest =>
      cases h
      have hkey := congrArg List.reverse hrest
      simpa using hkey
    case h_2 => cases h
  · intro h
    simp [h]

theorem baseName_listKey (name : String) : baseName (name ++ "[]") = name := by
  rw [baseName, listName?_eq_some_iff.mpr rfl]
  rfl

theorem names_insert (params : Parameters) (name : String) (value : ParamValue) :
    (params.insert name value).names =
      if name ∈ params.names then params.names else params.names ++ [name] := by
  obtain ⟨entries⟩ := params
  simp only [insert, names]
  induction entries with
  | nil => simp [insertEntry]
  | cons entry rest ih =>
    obtain ⟨known, existing⟩ := entry
    by_cases h : known = name
    · simp [insertEntry, h]
    · have h' : name ≠ known := fun e => h e.symm
      simp only [insertEntry, h, if_false, List.map_cons, List.mem_cons, h', false_or, ih]
      by_cases hm : name ∈ rest.map Prod.fst <;> simp [hm]

theorem get?_insert (params : Parameters) (name other : String) (value : ParamValue) :
    (params.insert name value).get? other =
      if other = name then some ((params.get? name).elim value (·.absorb value))
      else params.get? other := by
  obtain ⟨entries⟩ := params
  simp only [insert, get?]
  induction entries with
  | nil => simp [insertEntry, lookup_cons_eq]
  | cons entry rest ih =>
    obtain ⟨known, existing⟩ := entry
    by_cases hk : known = name
    · subst hk
      simp only [insertEntry, if_true, lookup_cons_eq]
      split <;> simp
    · have hn : name ≠ known := fun e => hk e.symm
      simp only [insertEntry, hk, if_false, lookup_cons_eq, ih, hn]
      by_cases h : other = known
      · simp [h, hk]
      · simp [h]

theorem mem_names_iff {params : Parameters} {name : String} :
    name ∈ params.names ↔ (params.get? name).isSome = true := by
  rw [get?, List.lookup_isSome_iff]
  simp only [names, List.mem_map, beq_iff_eq]
  exact exists_congr fun entry => and_congr_right fun _ => eq_comm

/-- Where names are distinct, looking a name up finds its only entry. -/
theorem get?_eq_some_of_mem {params : Parameters} (h : params.names.Nodup) {name : String}
    {value : ParamValue} (hmem : (name, value) ∈ params.entries) :
    params.get? name = some value := by
  obtain ⟨entries⟩ := params
  simp only [names, get?] at h hmem ⊢
  induction entries with
  | nil => cases hmem
  | cons entry rest ih =>
    obtain ⟨known, existing⟩ := entry
    rw [List.map_cons, List.nodup_cons] at h
    rw [lookup_cons_eq]
    rcases List.mem_cons.mp hmem with hfirst | hrest
    · cases hfirst
      simp
    · have hne : name ≠ known := by
        rintro rfl
        exact h.1 (List.mem_map.mpr ⟨(name, value), hrest, rfl⟩)
      rw [if_neg hne]
      exact ih h.2 hrest

theorem names_without (params : Parameters) (reserved : ReservedNames) :
    (params.without reserved).names = params.names.filter fun name => !reserved.contains name := by
  rw [names, names, List.filter_map]
  rfl

theorem get?_without (params : Parameters) (reserved : ReservedNames) (name : String) :
    (params.without reserved).get? name =
      if reserved.contains name then none else params.get? name := by
  rw [get?, without, lookup_filter_key fun name => !reserved.contains name]
  by_cases h : reserved.contains name = true <;> simp [h, get?]

theorem without_insert (params : Parameters) (name : String) (value : ParamValue)
    (reserved : ReservedNames) :
    (params.insert name value).without reserved =
      if reserved.contains name then params.without reserved
      else (params.without reserved).insert name value := by
  obtain ⟨entries⟩ := params
  simp only [insert, without]
  induction entries with
  | nil =>
    by_cases h : reserved.contains name = true <;> simp [insertEntry, h]
  | cons entry rest ih =>
    obtain ⟨known, existing⟩ := entry
    by_cases hk : known = name
    · subst hk
      by_cases h : reserved.contains known = true <;> simp [insertEntry, h]
    · by_cases h : reserved.contains name = true <;>
        by_cases hknown : reserved.contains known = true <;>
          simp_all [insertEntry]

end Parameters

end ParamQuery
