import ParamQuery.Proofs.Occurrences
import ParamQuery.Proofs.QueryInvariants

/-!
# Accumulated columns

A query keeps the columns that were selected since all columns were last asked for. The first list
is kept as it stands and each later one adds the names that are missing, so the columns are distinct
just if the first list has no repetition. The same columns asked for in one list or one by one are
therefore the same selection just if no column is asked for twice.
-/

namespace ParamQuery

namespace Projection

def columns? : Projection → Option (List String)
  | .columns names => some names
  | .allOf _ => none

/-- The lists of columns that were selected since all columns were last asked for. -/
def columnRun (selections : List Projection) : List (List String) :=
  (selections.rtakeWhile fun selection => selection.columns?.isSome).filterMap columns?

lemma columnRun_concat (selections : List Projection) (next : Projection) :
    columnRun (selections ++ [next]) =
      next.columns?.elim [] fun names => columnRun selections ++ [names] := by
  rw [columnRun, List.rtakeWhile_concat]
  cases next with
  | allOf table => simp [columns?]
  | columns names => simp [columns?, columnRun]

/-- Where the run is empty, columns were not selected last. -/
lemma getLast?_ne_columns {selections : List Projection} (h : columnRun selections = [])
    (names : List String) : selections.getLast? ≠ some (.columns names) := by
  induction selections using List.reverseRecOn with
  | nil => simp
  | append_singleton selections next _ =>
    rw [List.getLast?_concat]
    rintro ⟨⟩
    simp [columnRun_concat, columns?] at h

lemma after_allOf (existing : Option Projection) (table : String) :
    after existing (.allOf table) = .allOf table := by
  rcases existing with _ | ⟨_⟩ | ⟨_⟩ <;> rfl

end Projection

namespace Model

open Projection (columnRun)

lemma projection_run_concat (model : Model) (selections : List Projection) (next : Projection) :
    (model.run model.entity.fresh ((selections ++ [next]).map .select)).projection =
      some (Projection.after
        (model.run model.entity.fresh (selections.map .select)).projection next) := by
  rw [List.map_append, run, List.foldl_append]
  rfl

/-- A run of selections leaves the lists since all columns were last asked for, each name of a later
list once and only if it is missing. -/
theorem projection_run (model : Model) (selections : List Projection) :
    (model.run model.entity.fresh (selections.map .select)).projection =
      match columnRun selections with
      | [] => selections.getLast?
      | first :: more => some (.columns (appendMissing first more.flatten)) := by
  induction selections using List.reverseRecOn with
  | nil => rfl
  | append_singleton selections next ih =>
    rw [projection_run_concat, ih, Projection.columnRun_concat, List.getLast?_concat]
    cases next with
    | allOf table => exact congrArg some (Projection.after_allOf _ table)
    | columns names =>
      cases hrun : columnRun selections with
      | nil =>
        -- the list begins a run, whatever was selected before
        have hlast := Projection.getLast?_ne_columns hrun
        cases hother : selections.getLast? with
        | none => rfl
        | some other =>
          cases other with
          | allOf table => rfl
          | columns known => exact absurd hother (hlast known)
      | cons first more =>
        have hflatten : (more ++ [names]).flatten = more.flatten ++ names := by simp
        simp only [Projection.after, Projection.columns?, Option.elim_some, List.cons_append,
          hflatten, appendMissing, List.foldl_append]

end Model

/-! ### The columns of a request -/

/-- A name in a list of columns as the list is read, without its outer blanks. -/
def columnName (name : String) : String := Argument.trimmed name.toList

namespace Request

lemma selected_singleton (default : Projection) (names : List String) :
    selected default [names] = .columns names := by
  simp [selected]

/-- Columns that come one by one are selected once each. -/
lemma selected_one_by_one (default : Projection) {names : List String} (h : names ≠ []) :
    selected default (names.map fun name => [name]) = .columns names.eraseDups := by
  cases names with
  | nil => exact absurd rfl h
  | cons first rest =>
    have hflatten : (rest.map fun name => [name]).flatten = rest := by
      rw [← List.flatMap_def]
      exact List.flatMap_singleton' rest
    have hmissing : rest.filter (fun name => name ∉ [first]) =
        rest.filter fun name => !name == first := by
      apply List.filter_congr
      intro name _
      by_cases hname : name = first <;> simp [hname]
    rw [List.map_cons, selected, hflatten, hmissing, List.eraseDups_cons]
    rfl

/-- The joint list of some columns is selected as they are one by one just if it repeats none. -/
lemma selected_together_iff (default : Projection) {names : List String} (h : names ≠ []) :
    selected default [names] = selected default (names.map fun name => [name]) ↔ names.Nodup := by
  rw [selected_singleton, selected_one_by_one default h, Projection.columns.injEq, eq_comm,
    eraseDups_eq_self_iff]

end Request

/-- A list that names a column is read. -/
lemma Registry.fault?_columns {raw : String} (h : Text.items raw.toList ≠ []) :
    builtin.fault? ⟨"columns", raw⟩ = none := by
  have hget : builtin.get? "columns" = some .columns := by rw [get?_builtin]; rfl
  have hlist : Argument.list "column[,column...]" raw.toList =
      .ok ((Text.items raw.toList).map String.ofList) :=
    Argument.list_eq_ok_iff.mpr ⟨rfl, by simpa using h⟩
  have hread : Directive.columns.read raw = .ok
      ⟨(Text.items raw.toList).map String.ofList,
        .issuing [.select (.columns ((Text.items raw.toList).map String.ofList))]⟩ :=
    (DirectiveKind.columns.read_directive raw).trans (bind_eq_ok_iff.mpr ⟨_, hlist, rfl⟩)
  simp only [fault?, hget, hread]

namespace Dialect

open Parameters

variable {pairs : List (String × String)} {lists : List (List String)}

/-- Pairs for columns compile if each of their lists names one. Just the columns that they name are
selected, or all as by default where columns are reserved. -/
lemma exists_compile_columns (model : Model) (reserved : ReservedNames)
    (hname : ∀ pair ∈ pairs, baseName pair.1 = "columns")
    (hlists : (pairs.map fun pair => (Text.items pair.2.toList).map String.ofList) = lists)
    (hfull : [] ∉ lists) :
    ∃ compiled, compile ⟨.builtin, reserved⟩ (.ofPairs pairs) model.entity = .ok compiled ∧
      compiled.query.projection = some (Request.selected model.defaultProjection
        (if reserved.contains "columns" then [] else lists)) := by
  have hoccurrences := occurrences_without_of_name reserved hname
  have hcolumns : ∀ occurrence ∈ ((ofPairs pairs).without reserved).occurrences,
      ∃ pair ∈ pairs, occurrence = ⟨"columns", pair.2⟩ := by
    intro occurrence hmem
    rw [hoccurrences] at hmem
    split at hmem
    · cases hmem
    · obtain ⟨pair, hpair, rfl⟩ := List.mem_map.mp hmem
      exact ⟨pair, hpair, rfl⟩
  have hitems : ∀ pair ∈ pairs, Text.items pair.2.toList ≠ [] := by
    intro pair hpair hnil
    apply hfull
    rw [← hlists]
    exact List.mem_map.mpr ⟨pair, hpair, by rw [hnil]; rfl⟩
  have hserved : ∀ occurrence ∈ ((ofPairs pairs).without reserved).occurrences,
      Registry.builtin.fault? occurrence = none ∧ model.Serves occurrence.request := by
    intro occurrence hmem
    obtain ⟨pair, hpair, rfl⟩ := hcolumns occurrence hmem
    refine ⟨Registry.fault?_columns (hitems pair hpair), fun relation hrelation => ?_,
      fun scope hscope => ?_⟩
    · cases hrelation
    · cases hscope
  have hfree : ∀ occurrence ∈ ((ofPairs pairs).without reserved).occurrences,
      (occurrence.name == "force") = false := by
    intro occurrence hmem
    obtain ⟨pair, -, rfl⟩ := hcolumns occurrence hmem
    rfl
  obtain ⟨compiled, hcompiled⟩ := exists_compile_iff.mpr hserved
  refine ⟨compiled, hcompiled, ?_⟩
  rw [query_of_compile hcompiled, forceLast_eq_self hfree, hoccurrences, Request.denotation]
  split
  · rfl
  · have hread : (pairs.map fun pair => (⟨"columns", pair.2⟩ : Occurrence).request).filterMap
        Request.columns? = lists := by
      rw [← hlists, List.filterMap_map, ← List.filterMap_eq_map]
      exact List.filterMap_congr fun _ _ => rfl
    rw [List.map_map]
    exact congrArg (fun lists => some (Request.selected model.defaultProjection lists)) hread

end Dialect

/-! ### One list or one value for each column -/

/-- Columns joined by commas are read back as a list of their names. -/
lemma items_joined {names : List String}
    (h : ∀ name ∈ names, columnName name ≠ "" ∧ ',' ∉ name.toList) :
    (Text.items (",".intercalate names).toList).map String.ofList = names.map columnName := by
  have hplain : ∀ part ∈ names.map String.toList, Text.trim part ≠ [] ∧ ',' ∉ part := by
    intro part hpart
    obtain ⟨name, hname, rfl⟩ := List.mem_map.mp hpart
    refine ⟨fun hblank => (h name hname).1 ?_, (h name hname).2⟩
    rw [columnName, Argument.trimmed, hblank]
  rw [String.toList_intercalate]
  refine (congrArg (List.map String.ofList) (Text.items_intercalate hplain)).trans ?_
  rw [List.map_map, List.map_map]
  rfl

lemma items_single {name : String} (h : columnName name ≠ "" ∧ ',' ∉ name.toList) :
    (Text.items name.toList).map String.ofList = [columnName name] := by
  have hname : ∀ other ∈ [name], columnName other ≠ "" ∧ ',' ∉ other.toList := by simpa using h
  simpa using items_joined hname

namespace Dialect

/-- One value with all columns and one value for each column select alike just if no column is
asked for twice, or columns are reserved. -/
lemma columns_together_iff (model : Model) (reserved : ReservedNames) {names : List String}
    (hne : names ≠ []) (hnames : ∀ name ∈ names, columnName name ≠ "" ∧ ',' ∉ name.toList) :
    ∃ together apart,
      compile ⟨.builtin, reserved⟩ (.ofPairs [("columns", ",".intercalate names)]) model.entity =
        .ok together ∧
      compile ⟨.builtin, reserved⟩ (.ofPairs (names.map fun name => ("columns[]", name)))
        model.entity = .ok apart ∧
      (together.query.projection = apart.query.projection ↔
        reserved.contains "columns" = true ∨ (names.map columnName).Nodup) := by
  have hcolumns : names.map columnName ≠ [] := by simpa using hne
  have hname : Parameters.baseName "columns" = "columns" := Parameters.baseName_of_plain (by decide)
  have hjoined : ([("columns", ",".intercalate names)].map fun pair =>
      (Text.items pair.2.toList).map String.ofList) = [names.map columnName] := by
    rw [List.map_singleton, items_joined hnames]
  have hsingles : ((names.map fun name => ("columns[]", name)).map fun pair =>
      (Text.items pair.2.toList).map String.ofList) =
        (names.map columnName).map fun name => [name] := by
    rw [List.map_map, List.map_map]
    exact List.map_congr_left fun name hname => items_single (hnames name hname)
  obtain ⟨together, htogether, hlist⟩ := exists_compile_columns model reserved
    (List.forall_mem_singleton.mpr hname) hjoined (by simpa using hcolumns.symm)
  obtain ⟨apart, hapart, hvalues⟩ := exists_compile_columns model reserved
    (List.forall_mem_map.mpr fun name _ => Parameters.baseName_listKey "columns") hsingles (by simp)
  refine ⟨together, apart, htogether, hapart, ?_⟩
  rw [hlist, hvalues, Option.some_inj]
  cases reserved.contains "columns" with
  | true => simp
  | false => simpa using Request.selected_together_iff model.defaultProjection hcolumns

end Dialect

namespace Model

open Projection (columnRun)

/-- Columns are selected after a run that ends with lists of them: the first list as it stands and
what the later ones add to it. -/
lemma projection_run_eq_columns_iff {model : Model} {selections : List Projection}
    {names : List String} :
    (model.run model.entity.fresh (selections.map .select)).projection = some (.columns names) ↔
      ∃ first more, columnRun selections = first :: more ∧
        names = appendMissing first more.flatten := by
  rw [projection_run]
  cases hrun : columnRun selections with
  | nil =>
    simpa using Projection.getLast?_ne_columns hrun names
  | cons first more =>
    rw [Option.some_inj, Projection.columns.injEq]
    constructor
    · rintro rfl
      exact ⟨first, more, rfl, rfl⟩
    · rintro ⟨_, _, ⟨⟩, rfl⟩
      rfl

/-- The columns that selections leave are distinct just if the first list of the run that they end
with is. So a request selects the same columns in one value as one by one just if it asks for none
of them twice, or columns are reserved. -/
theorem selected_columns_distinct_iff (model : Model) :
    (∀ (selections : List Projection) (names : List String),
      (model.run model.entity.fresh (selections.map .select)).projection = some (.columns names) →
        ∃ first more, columnRun selections = first :: more ∧
          names = first ++ (more.flatten.filter fun name => name ∉ first).eraseDups ∧
          (names.Nodup ↔ first.Nodup)) ∧
    ∀ (reserved : ReservedNames) (names : List String), names ≠ [] →
      (∀ name ∈ names, columnName name ≠ "" ∧ ',' ∉ name.toList) →
        ∃ together apart,
          Dialect.compile ⟨.builtin, reserved⟩ (.ofPairs [("columns", ",".intercalate names)])
            model.entity = .ok together ∧
          Dialect.compile ⟨.builtin, reserved⟩
            (.ofPairs (names.map fun name => ("columns[]", name))) model.entity = .ok apart ∧
          (together.query.projection = apart.query.projection ↔
            reserved.contains "columns" = true ∨ (names.map columnName).Nodup) := by
  refine ⟨fun selections names hselected => ?_, fun reserved names hne hnames =>
    Dialect.columns_together_iff model reserved hne hnames⟩
  obtain ⟨first, more, hrun, rfl⟩ := projection_run_eq_columns_iff.mp hselected
  exact ⟨first, more, hrun, appendMissing_eq first more.flatten, nodup_appendMissing_iff⟩

/-- All columns asked for between two runs, of which only the second counts, and three columns of
which two have one name. -/
theorem selected_columns_distinct_iff_renewed :
    let model : Model := ⟨"User", "users", none, [], .allOf "users"⟩
    let selections : List Projection :=
      [.columns ["a", "a"], .allOf "users", .columns ["id", "name"], .columns ["age", "id", "age"]]
    let names := ["id", " name", "id "]
    (model.run model.entity.fresh (selections.map .select)).projection =
        some (.columns ["id", "name", "age"]) ∧
      (∃ first more, columnRun selections = first :: more ∧
        ["id", "name", "age"] = first ++ (more.flatten.filter fun name => name ∉ first).eraseDups ∧
        (["id", "name", "age"].Nodup ↔ first.Nodup)) ∧
      ∃ together apart,
        Dialect.compile ⟨.builtin, {}⟩ (.ofPairs [("columns", ",".intercalate names)])
          model.entity = .ok together ∧
        Dialect.compile ⟨.builtin, {}⟩ (.ofPairs (names.map fun name => ("columns[]", name)))
          model.entity = .ok apart ∧
        (together.query.projection = apart.query.projection ↔
          ReservedNames.contains {} "columns" = true ∨ (names.map columnName).Nodup) := by
  intro model selections names
  have hselected : (model.run model.entity.fresh (selections.map .select)).projection =
      some (.columns ["id", "name", "age"]) := by rfl
  exact ⟨hselected, (selected_columns_distinct_iff model).1 selections _ hselected,
    (selected_columns_distinct_iff model).2 {} names (by decide) (by decide)⟩

/-- A column that is named twice in the first list is selected twice, though asked for one by one it
is selected once. -/
theorem selected_columns_repeated :
    let model : Model := ⟨"User", "users", none, [], .allOf "users"⟩
    (model.run model.entity.fresh [.select (.columns ["id", "id"])]).projection =
        some (.columns ["id", "id"]) ∧
      ¬["id", "id"].Nodup ∧
      (Dialect.compile ⟨.builtin, {}⟩ (.ofPairs [("columns", "id,id")]) model.entity).toOption.map
        (fun compiled => compiled.query.projection) = some (some (.columns ["id", "id"])) ∧
      (Dialect.compile ⟨.builtin, {}⟩ (.ofPairs [("columns[]", "id"), ("columns[]", "id")])
        model.entity).toOption.map (fun compiled => compiled.query.projection) =
          some (some (.columns ["id"])) := by
  intro model
  refine ⟨rfl, by decide, ?_, ?_⟩
  · rfl
  · rfl

end Model

end ParamQuery
