import ParamQuery.Proofs.CallTrace
import ParamQuery.Proofs.Catalogue
import ParamQuery.Proofs.Grouping

/-!
# The forced scope

The steps of `force` are applied after all others, in order of arrival, and each sets the scope.
So nothing runs after the last of them, and its scope stands, whatever the steps before it did
to the query: other directives may set the scope too, and a host may have bound any handlers to
their names.
-/

namespace ParamQuery

/-- A step of `force` makes one call, which sets the scope that its argument names. -/
lemma PlanStep.fragment_of_force {registry : Registry}
    (hforce : registry.get? "force" = some .force) {step : PlanStep} (hname : step.name = "force")
    (h : registry.Reads step) :
    ∃ scope : Scope, scope.name = Argument.trimmed step.raw.toList ∧
      step.reading.fragment = .issuing [.withScope scope] := by
  obtain ⟨directive, hget, hread⟩ := h
  rw [hname, hforce] at hget
  cases hget
  obtain ⟨scope, hscope, hreading⟩ :=
    bind_eq_ok_iff.mp ((DirectiveKind.force.read_directive _).symm.trans hread)
  have hread : step.reading = ⟨[scope.name], .issuing [.withScope scope]⟩ :=
    (Except.ok.inj hreading).symm
  exact ⟨scope, Argument.name_of_scope hscope, by rw [hread]⟩

namespace Plan

variable {State : Type}

/-- Applies steps up to and including the first that fails, each in a way of its own. -/
def applyBy (act : State → PlanStep → State × Option CompileError) (state : State) :
    List PlanStep → State × Option CompileError
  | [] => (state, none)
  | step :: rest =>
    match act state step with
    | (next, none) => applyBy act next rest
    | (next, some fault) => (next, some fault)

lemma applyAll_eq_applyBy (entity : Entity State) (state : State) (steps : List PlanStep) :
    applyAll entity state steps = applyBy (applyStep entity) state steps := by
  induction steps generalizing state with
  | nil => rfl
  | cons step rest ih =>
    rw [applyAll, applyBy]
    cases applyStep entity state step with
    | mk next fault =>
      cases fault with
      | none => exact ih next
      | some fault => rfl

/-- A plan that runs without a fault has all its steps applied to the query that it starts with. -/
lemma applyAll_of_run {plan : Plan} {entity : Entity State} {final : State}
    (h : plan.run entity = (final, none)) :
    ∃ start, applyAll entity start plan = (final, none) := by
  rw [run] at h
  cases hstart : plan.start entity with
  | mk start fault =>
    rw [hstart] at h
    cases fault with
    | none => exact ⟨start, h⟩
    | some fault => simp at h

lemma applyBy_singleton (act : State → PlanStep → State × Option CompileError) (start : State)
    (step : PlanStep) : applyBy act start [step] = act start step := by
  rw [applyBy]
  cases act start step with
  | mk next fault => cases fault <;> rfl

/-- A run in which no step failed came to its later steps with some query. -/
lemma later_of_applyBy {act : State → PlanStep → State × Option CompileError}
    {start final : State} {earlier later : List PlanStep}
    (h : applyBy act start (earlier ++ later) = (final, none)) :
    ∃ reached, applyBy act reached later = (final, none) := by
  induction earlier generalizing start with
  | nil => exact ⟨start, h⟩
  | cons step rest ih =>
    rw [List.cons_append, applyBy] at h
    cases hact : act start step with
    | mk next fault =>
      rw [hact] at h
      cases fault with
      | none => exact ih h
      | some fault => simp at h

end Plan

/-- The last occurrence of `force` becomes the last step of the plan. -/
lemma Registry.exists_last_of_plan {registry : Registry} {params : Parameters} {plan : Plan}
    (h : registry.plan params = .ok plan) {raw : String}
    (hraw : (params.occurrences.filter fun occurrence => occurrence.name == "force").getLast? =
      some ⟨"force", raw⟩) :
    ∃ earlier last, plan = earlier ++ [last] ∧ last.occurrence = ⟨"force", raw⟩ ∧
      registry.Reads last := by
  obtain ⟨steps, hocc, hreads, rfl⟩ := Registry.plan_eq_ok_iff.mp h
  -- among the occurrences and among the steps the filter keeps the same places
  rw [← hocc, List.filter_map, List.getLast?_map, Option.map_eq_some_iff] at hraw
  obtain ⟨last, hlast, hoccurrence⟩ := hraw
  obtain ⟨forced, hforced⟩ := List.getLast?_eq_some_iff.mp hlast
  have hmem : last ∈ steps := by
    have hfiltered := List.mem_of_getLast? hlast
    exact (List.mem_filter.mp hfiltered).1
  refine ⟨steps.filter (fun step => !(step.name == "force")) ++ forced, last, ?_, hoccurrence,
    hreads last hmem⟩
  rw [List.append_assoc, ← hforced]
  rfl

/-- A forced step that is not refused sets its scope, whatever query it finds. -/
lemma Model.scope_of_applyStep {model : Model} {reached final : Query} {step : PlanStep}
    {scope : Scope} (hforce : step.reading.fragment = .issuing [.withScope scope])
    (h : Plan.applyStep model.entity reached step = (final, none)) : final.scope = scope := by
  rw [Plan.applyStep, hforce, Entity.follow_issuing_singleton] at h
  cases hissue : reached.issue (.withScope scope) with
  | error refusal => simp [Model.entity, hissue] at h
  | ok next =>
    simp only [Model.entity, hissue, Option.map_none, Prod.mk.injEq, and_true] at h
    subst h
    rw [Query.issue] at hissue
    split at hissue
    · cases hissue
      rfl
    · cases hissue

/-- The steps of `force` stand at the end of a plan, so the other steps have no say in the scope,
however they act on the query. -/
lemma Registry.scope_of_applyBy {registry : Registry}
    (hforce : registry.get? "force" = some .force) {params : Parameters} {plan : Plan}
    (hplan : registry.plan params = .ok plan) {raw : String}
    (hraw : (params.occurrences.filter fun occurrence => occurrence.name == "force").getLast? =
      some ⟨"force", raw⟩) {model : Model} {act : Query → PlanStep → Query × Option CompileError}
    (hact : ∀ query step, step.name = "force" →
      act query step = Plan.applyStep model.entity query step) {start final : Query}
    (h : Plan.applyBy act start plan = (final, none)) :
    final.scope.name = Argument.trimmed raw.toList := by
  obtain ⟨earlier, last, rfl, hlast, hreads⟩ := exists_last_of_plan hplan hraw
  obtain ⟨hname, rfl⟩ := Occurrence.mk.inj hlast
  obtain ⟨reached, hreached⟩ := Plan.later_of_applyBy h
  rw [Plan.applyBy_singleton, hact reached last hname] at hreached
  obtain ⟨scope, hscope, hfragment⟩ := PlanStep.fragment_of_force hforce hname hreads
  rw [Model.scope_of_applyStep hfragment hreached]
  exact hscope

/-- Among the pairs of a request the last one of a name is its last occurrence. -/
lemma Parameters.last_occurrence_of_ofPairs {reserved : ReservedNames} {name raw : String}
    {before after : List (String × String)} {pair : String × String}
    (hraw : (((ofPairs (before ++ pair :: after)).without reserved).occurrences.filter
      fun occurrence => occurrence.name == name).getLast? = some ⟨name, raw⟩)
    (hpair : baseName pair.1 = name) (hafter : ∀ later ∈ after, baseName later.1 ≠ name) :
    raw = pair.2 := by
  have hnodup := nodup_names_without (nodup_names_ofPairs (before ++ pair :: after)) reserved
  rw [filter_occurrences hnodup, textsOf_without] at hraw
  split at hraw
  · cases hraw
  · have hrest : after.filter (fun later => baseName later.1 == name) = [] := by
      rw [List.filter_eq_nil_iff]
      intro later hlater
      simpa using hafter later hlater
    rw [textsOf_ofPairs, List.filter_append, List.filter_cons_of_pos (by simpa using hpair), hrest]
      at hraw
    simpa using hraw.symm

/-- Force wins over everything. In a registry that binds `force` to the forced scope, and any
other handlers to any other names, a request that compiles over a model has the scope that its
last `force` names, in order of arrival. The same holds of any run of its plan that treats the
steps of `force` alike, whatever it does to the query at the others. -/
theorem scope_of_last_force {registry : Registry} (hforce : registry.get? "force" = some .force)
    (reserved : ReservedNames) (model : Model) (params : Parameters) (raw : String)
    (hraw : ((params.without reserved).occurrences.filter
      fun occurrence => occurrence.name == "force").getLast? = some ⟨"force", raw⟩) :
    (∀ compiled, Dialect.compile ⟨registry, reserved⟩ params model.entity = .ok compiled →
      compiled.query.scope.name = Argument.trimmed raw.toList) ∧
    (∀ plan, Dialect.plan ⟨registry, reserved⟩ params = .ok plan →
      ∀ act : Query → PlanStep → Query × Option CompileError,
        (∀ query step, step.name = "force" →
          act query step = Plan.applyStep model.entity query step) →
        ∀ start final, Plan.applyBy act start plan = (final, none) →
          final.scope.name = Argument.trimmed raw.toList) ∧
    (∀ before key text after, params = .ofPairs (before ++ (key, text) :: after) →
      Parameters.baseName key = "force" →
      (∀ pair ∈ after, Parameters.baseName pair.1 ≠ "force") → raw = text) := by
  refine ⟨?_, ?_, ?_⟩
  · intro compiled hcompile
    obtain ⟨hplan, hrun⟩ := Dialect.run_of_compile hcompile
    obtain ⟨start, happly⟩ := Plan.applyAll_of_run hrun
    rw [Plan.applyAll_eq_applyBy] at happly
    exact Registry.scope_of_applyBy hforce hplan hraw (fun _ _ _ => rfl) happly
  · intro plan hplan act hact start final happly
    exact Registry.scope_of_applyBy hforce hplan hraw hact happly
  · rintro before key text after rfl hkey hafter
    exact Parameters.last_occurrence_of_ofPairs hraw hkey hafter

/-- A host binds `force` under a second name and a directive that hides all rows but the deleted
ones; neither outdoes a `force` before them, and neither would steps that heed no refusal. -/
theorem scope_of_last_force_before_others :
    let registry : Registry := ⟨Registry.builtin.bindings ++
      [("pin", .force), ("hide", .fixed ["hidden"] [.withScope .onlyTrashed])]⟩
    let model : Model := ⟨"User", "users", some "deleted_at", [], .allOf "users"⟩
    let params := Parameters.ofPairs [("force[]", "only_trashed"), ("hide", ""),
      ("force", " with_trashed"), ("pin", "without_trashed"), ("only_trashed", "")]
    let heedless : Query → PlanStep → Query × Option CompileError := fun query step =>
      if step.name = "force" then Plan.applyStep model.entity query step
      else ({ query with scope := .onlyTrashed }, none)
    (∃ compiled, Dialect.compile ⟨registry, {}⟩ params model.entity = .ok compiled ∧
      compiled.query.scope.name = "with_trashed") ∧
    (∃ plan final, Dialect.plan ⟨registry, {}⟩ params = .ok plan ∧
      Plan.applyBy heedless { model := model } plan = (final, none) ∧
      final.scope.name = "with_trashed") := by
  intro registry model params heedless
  obtain ⟨raw, hraw⟩ : ∃ raw, ((params.without {}).occurrences.filter
      fun occurrence => occurrence.name == "force").getLast? = some ⟨"force", raw⟩ := ⟨_, rfl⟩
  have hforce : registry.get? "force" = some .force := rfl
  have hlast := scope_of_last_force hforce {} model params raw hraw
  obtain rfl := hlast.2.2 [("force[]", "only_trashed"), ("hide", "")] "force" " with_trashed"
    [("pin", "without_trashed"), ("only_trashed", "")] rfl rfl (by decide)
  obtain ⟨compiled, hcompiled⟩ : ∃ compiled,
      Dialect.compile ⟨registry, {}⟩ params model.entity = .ok compiled := ⟨_, rfl⟩
  obtain ⟨plan, final, hplan, hfinal⟩ : ∃ plan final,
      Dialect.plan ⟨registry, {}⟩ params = .ok plan ∧
        Plan.applyBy heedless { model := model } plan = (final, none) := ⟨_, _, rfl, rfl⟩
  have hact : ∀ query step, step.name = "force" →
      heedless query step = Plan.applyStep model.entity query step := by
    intro query step hname
    simp [heedless, hname]
  have hname : Argument.trimmed " with_trashed".toList = "with_trashed" := by rfl
  rw [hname] at hlast
  exact ⟨⟨compiled, hcompiled, hlast.1 compiled hcompiled⟩,
    plan, final, hplan, hfinal, hlast.2.1 plan hplan heedless hact _ final hfinal⟩

end ParamQuery
