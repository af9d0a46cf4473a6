import ParamQuery.Proofs.Catalogue
import Mathlib.Data.List.Basic

/-!
# The query that a request denotes

A request over the built-in directives denotes one reference query, read off the list of its
occurrences with `force` at the end: filters nest to the left, sort keys follow one another,
relations and columns come in the order of their first mention, the last limit and the last
offset stand, and a forced scope stands against every toggle. A request that compiles compiles
to the query that it denotes.
-/

namespace ParamQuery

namespace Request

/-- Filters nest to the left; the first one is the root whatever its conjunction. -/
def joined : List (Conjunction × Predicate) → Option Predicate
  | [] => none
  | (_, root) :: rest =>
    some (rest.foldl (fun tree next => Predicate.join (some tree) next.1 next.2) root)

/-- The first list of columns as it stands, then the names that later lists add to it. -/
def selected (default : Projection) : List (List String) → Projection
  | [] => default
  | first :: more =>
    .columns (first ++ (more.flatten.filter (fun name => name ∉ first)).eraseDups)

/-- The query over a model that asks for just these things. -/
def denotation (model : Model) (requests : List Request) : Query where
  model := model
  projection := some (selected model.defaultProjection (requests.filterMap Request.columns?))
  predicate := joined (requests.filterMap Request.filter?)
  order := requests.flatMap Request.sortKeys
  relations := (requests.flatMap Request.relations).eraseDups
  limit := (requests.filterMap Request.limit?).getLast?
  offset := (requests.filterMap Request.offset?).getLast?.getD 0
  scope := ((requests.filterMap Request.forced?).getLast?.or
    (requests.filterMap Request.toggled?).getLast?).getD .withoutTrashed

lemma foldl_join_eq_joined (filters : List (Conjunction × Predicate)) :
    filters.foldl (fun existing next => some (Predicate.join existing next.1 next.2)) none =
      joined filters := by
  have hsome : ∀ (rest : List (Conjunction × Predicate)) (root : Predicate),
      rest.foldl (fun existing next => some (Predicate.join existing next.1 next.2)) (some root) =
        some (rest.foldl (fun tree next => Predicate.join (some tree) next.1 next.2) root) := by
    intro rest
    induction rest with
    | nil => exact fun _ => rfl
    | cons next rest ih => exact fun root => ih _
  cases filters with
  | nil => rfl
  | cons first rest => exact hsome rest _

lemma foldl_after_columns (known : List String) (lists : List (List String)) :
    (lists.map Projection.columns).foldl
        (fun existing next => some (Projection.after existing next)) (some (.columns known)) =
      some (.columns (appendMissing known lists.flatten)) := by
  induction lists generalizing known with
  | nil => rfl
  | cons names rest ih =>
    rw [List.map_cons, List.foldl_cons, Projection.after, ih, List.flatten_cons]
    simp only [appendMissing, List.foldl_append]

/-- The default projection is selected just where no list of columns is. -/
lemma foldl_after_eq_selected (default : Projection) (lists : List (List String)) :
    ((if lists = [] then [default] else []) ++ lists.map Projection.columns).foldl
        (fun existing next => some (Projection.after existing next)) none =
      some (selected default lists) := by
  cases lists with
  | nil => rfl
  | cons first more =>
    rw [selected, ← appendMissing_eq]
    exact foldl_after_columns first more

end Request

namespace Occurrence

lemma toggled?_of_eq_force {occurrence : Occurrence} (h : occurrence.name = "force") :
    occurrence.request.toggled? = none := by
  rw [request, h]
  rfl

lemma columns?_isSome (occurrence : Occurrence) :
    occurrence.request.columns?.isSome = (occurrence.name == "columns") := by
  rw [Bool.eq_iff_iff, beq_iff_eq, ← DirectiveKind.ofName?_eq_columns_iff, request]
  cases DirectiveKind.ofName? occurrence.name with
  | none => simp
  | some kind => cases kind <;> simp

end Occurrence

namespace Plan

variable {plan : Plan}

lemma filterMap_calls {β : Type} {read : Call → Option β} (asked : Request → List β)
    (h : ∀ step ∈ plan, step.reading.calls.filterMap read = asked step.occurrence.request) :
    ((lines plan).map Prod.snd).filterMap read =
      (plan.map fun step => step.occurrence.request).flatMap asked := by
  have hcalls : (lines plan).map Prod.snd = plan.flatMap fun step => step.reading.calls := by
    simp [lines, List.map_flatMap, Function.comp_def]
  rw [hcalls, List.filterMap_flatMap, List.flatMap_map]
  exact List.flatMap_congr h

lemma filterMap_script {β : Type} {read : Call → Option β} {projection : Projection}
    (h : read (.select projection) = none) :
    ((plan.script projection).map Prod.snd).filterMap read =
      ((lines plan).map Prod.snd).filterMap read := by
  rw [script, opening, List.map_append, List.filterMap_append]
  split <;> simp [h]

lemma filterMap_script_projection (projection : Projection) :
    ((plan.script projection).map Prod.snd).filterMap Call.projection? =
      (if plan.any (fun step => step.name == "columns") then [] else [projection]) ++
        ((lines plan).map Prod.snd).filterMap Call.projection? := by
  rw [script, opening, List.map_append, List.filterMap_append]
  split <;> rfl

lemma any_columns_iff :
    plan.any (fun step => step.name == "columns") = true ↔
      (plan.map fun step => step.occurrence.request).filterMap Request.columns? ≠ [] := by
  rw [List.any_eq_true, Ne, List.filterMap_eq_nil_iff]
  simp only [List.mem_map, forall_exists_index, and_imp, forall_apply_eq_imp_iff₂, not_forall]
  constructor
  · rintro ⟨step, hstep, hname⟩
    refine ⟨step, hstep, ?_⟩
    rw [← ne_eq, ← Option.isSome_iff_ne_none, Occurrence.columns?_isSome]
    exact hname
  · rintro ⟨step, hstep, hcolumns⟩
    refine ⟨step, hstep, ?_⟩
    rw [← ne_eq, ← Option.isSome_iff_ne_none, Occurrence.columns?_isSome] at hcolumns
    exact hcolumns

end Plan

/-- The scope of the last forced directive stands against every toggle. -/
lemma getLast?_scopes {toggles forced : List Request}
    (htoggles : ∀ request ∈ toggles, request.forced? = none)
    (hforced : ∀ request ∈ forced, request.toggled? = none) :
    ((toggles ++ forced).flatMap fun request =>
        (request.toggled?.or request.forced?).toList).getLast? =
      ((toggles ++ forced).filterMap Request.forced?).getLast?.or
        ((toggles ++ forced).filterMap Request.toggled?).getLast? := by
  have hleft : (toggles.flatMap fun request => (request.toggled?.or request.forced?).toList) =
      toggles.filterMap Request.toggled? := by
    rw [List.filterMap_eq_flatMap_toList]
    exact List.flatMap_congr fun request h => by rw [htoggles request h, Option.or_none]
  have hright : (forced.flatMap fun request => (request.toggled?.or request.forced?).toList) =
      forced.filterMap Request.forced? := by
    rw [List.filterMap_eq_flatMap_toList]
    exact List.flatMap_congr fun request h => by rw [hforced request h, Option.none_or]
  rw [List.flatMap_append, hleft, hright, List.filterMap_append, List.filterMap_append,
    List.filterMap_eq_nil_iff.mpr htoggles, List.filterMap_eq_nil_iff.mpr hforced,
    List.nil_append, List.append_nil, List.getLast?_append]

/-- A plan with the forced steps at the end, all of whose calls are taken, leaves the query that
its occurrences denote. -/
lemma after_script_eq_denotation (model : Model) {plan : Plan} {free forced : List PlanStep}
    (hplan : plan = free ++ forced) (hfree : ∀ step ∈ free, step.name ≠ "force")
    (hforced : ∀ step ∈ forced, step.name = "force")
    (hmakes : ∀ step ∈ plan, step.Makes step.occurrence.request) :
    model.entity.fresh.after ((plan.script model.defaultProjection).map Prod.snd) =
      Request.denotation model (plan.map fun step => step.occurrence.request) := by
  rw [Query.after, Request.denotation, Query.mk.injEq]
  refine ⟨rfl, ?_, ?_, ?_, ?_, ?_, ?_, ?_⟩
  -- only here does the default projection count
  · rw [Plan.filterMap_script_projection, Plan.filterMap_calls
        (fun request => request.columns?.toList.map .columns)
        fun step h => (hmakes step h).projections,
      ← List.map_flatMap, ← List.filterMap_eq_flatMap_toList, if_congr Plan.any_columns_iff rfl rfl,
      ite_not]
    exact Request.foldl_after_eq_selected _ _
  · rw [Plan.filterMap_script rfl, Plan.filterMap_calls (fun request => request.filter?.toList)
        fun step h => (hmakes step h).filters, ← List.filterMap_eq_flatMap_toList]
    exact Request.foldl_join_eq_joined _
  · rw [Plan.filterMap_script rfl, Plan.filterMap_calls Request.sortKeys
        fun step h => (hmakes step h).sortKeys]
    exact List.nil_append _
  · rw [Plan.filterMap_script rfl, Plan.filterMap_calls Request.relations
        fun step h => (hmakes step h).relations, appendMissing_eq]
    simp [Model.entity]
  · rw [Plan.filterMap_script rfl, Plan.filterMap_calls (fun request => request.limit?.toList)
        fun step h => (hmakes step h).limits, ← List.filterMap_eq_flatMap_toList]
    exact Option.or_none
  · rw [Plan.filterMap_script rfl, Plan.filterMap_calls (fun request => request.offset?.toList)
        fun step h => (hmakes step h).offsets, ← List.filterMap_eq_flatMap_toList]
    rfl
  -- and only here the order of the steps
  · rw [Plan.filterMap_script rfl, Plan.filterMap_calls
        (fun request => (request.toggled?.or request.forced?).toList)
        fun step h => (hmakes step h).scopes, hplan, List.map_append, getLast?_scopes]
    · rfl
    · intro request hrequest
      obtain ⟨step, hstep, rfl⟩ := List.mem_map.mp hrequest
      exact (Occurrence.asksByName step.occurrence).forced (hfree step hstep)
    · intro request hrequest
      obtain ⟨step, hstep, rfl⟩ := List.mem_map.mp hrequest
      exact Occurrence.toggled?_of_eq_force (hforced step hstep)

/-- A request over the built-in directives that compiles against a model compiles to the query
that it denotes. -/
theorem compile_builtin_denotes (model : Model) (reserved : ReservedNames) (params : Parameters)
    (compiled : Compiled Query)
    (h : Dialect.compile ⟨.builtin, reserved⟩ params model.entity = .ok compiled) :
    let occurrences := (params.without reserved).occurrences
    let ordered := occurrences.filter (fun occurrence => occurrence.name != "force") ++
      occurrences.filter (fun occurrence => occurrence.name == "force")
    compiled.query = Request.denotation model (ordered.map Occurrence.request) := by
  dsimp only
  obtain ⟨hplan, htakes⟩ := Dialect.script_of_compile h
  obtain ⟨steps, hocc, hreads, hlast⟩ := Registry.plan_eq_ok_iff.mp hplan
  have hmakes : ∀ step ∈ compiled.plan, step.Makes step.occurrence.request := by
    intro step hstep
    rw [hlast] at hstep
    exact PlanStep.makes_of_reads (hreads step ((forceLast_perm _ steps).mem_iff.mp hstep))
  have hquery := Query.eq_after_of_takes htakes
  have hdenotes := after_script_eq_denotation model hlast
    (fun step hstep => by simpa using (List.mem_filter.mp hstep).2)
    (fun step hstep => by simpa using (List.mem_filter.mp hstep).2) hmakes
  have hordered : compiled.plan.map PlanStep.occurrence =
      (params.without reserved).occurrences.filter (fun occurrence => occurrence.name != "force") ++
        (params.without reserved).occurrences.filter
          (fun occurrence => occurrence.name == "force") := by
    have hocc' : steps.map PlanStep.occurrence = (params.without reserved).occurrences := hocc
    rw [hlast, forceLast, List.map_append, ← hocc', List.filter_map, List.filter_map]
    rfl
  rw [← hordered, List.map_map]
  exact hquery.trans hdenotes

/-- Repeated and interleaved names: the forced scope stands, the first `or_where` is the root and
the repeated column of the first list stays. -/
theorem compile_builtin_denotes_interleaved :
    let model : Model := ⟨"User", "users", some "deleted_at", ["posts", "roles"], .allOf "users"⟩
    let params := Parameters.ofPairs
      [("force", "with_trashed"), ("or_where", "a:lk:x%"), ("columns", "id,id"), ("limit", "5"),
        ("where[]", "b:eq:null"), ("only_trashed", ""), ("page", "3"), ("limit[]", "+7"),
        ("order_by", "-age, name"), ("columns[]", "name,id"), ("with", "roles,posts,roles")]
    ∃ compiled, Dialect.compile ⟨.builtin, {}⟩ params model.entity = .ok compiled ∧
      compiled.query =
        { model, projection := some (.columns ["id", "id", "name"]),
          predicate := some (.all [.compare "a" .like (.text "x%"), .isNull "b" false]),
          order := [⟨"age", .desc⟩, ⟨"name", .asc⟩], relations := ["roles", "posts"],
          limit := some 7, offset := 0, scope := .withTrashed } := by
  intro model params
  have hok : (Dialect.compile ⟨.builtin, {}⟩ params model.entity).isOk = true := by rfl
  cases hcompile : Dialect.compile ⟨.builtin, {}⟩ params model.entity with
  | error fault =>
    rw [hcompile] at hok
    cases hok
  | ok compiled =>
    exact ⟨compiled, rfl, (compile_builtin_denotes model {} params compiled hcompile).trans rfl⟩

end ParamQuery
