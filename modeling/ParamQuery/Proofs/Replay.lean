import ParamQuery.Proofs.Occurrences

/-!
# Replaying a compiled request

A compiled request records the name and the argument of each of its steps, in the order in which
they were applied. Sent as a request of its own, this record has the same plan: its names stand
together already and its forced steps at the end, so neither grouping nor forcing moves a step.
-/

namespace ParamQuery

lemma forceLast_forceLast {α : Type} (isForce : α → Bool) (entries : List α) :
    forceLast isForce (forceLast isForce entries) = forceLast isForce entries := by
  simp [forceLast, List.filter_append, List.filter_filter]

namespace Parameters

/-- The same parameters with the entry of `force` at the end. -/
def forcedLast (params : Parameters) : Parameters :=
  ⟨forceLast (fun entry => entry.1 == "force") params.entries⟩

lemma occurrences_forcedLast (params : Parameters) :
    params.forcedLast.occurrences =
      forceLast (fun occurrence => occurrence.name == "force") params.occurrences := by
  rw [forcedLast, forceLast, forceLast, occurrences_append,
    filter_name_occurrences (fun name => name == "force"),
    filter_name_occurrences (fun name => !name == "force")]

lemma nodup_names_forcedLast {params : Parameters} (h : params.names.Nodup) :
    params.forcedLast.names.Nodup :=
  ((forceLast_perm _ params.entries).map Prod.fst).nodup_iff.mpr h

end Parameters

/-- The arguments of a plan under their names, in the order of its steps. -/
def Plan.pairs (plan : Plan) : List (String × String) := plan.map fun step => (step.name, step.raw)

namespace Registry

variable {registry : Registry} {params : Parameters} {plan : Plan}

/-- A registry that binds no list key by its bindings. -/
lemma contains_listKey_of_bindings
    (h : ∀ binding ∈ registry.bindings, Parameters.listName? binding.1 = none) (stem : String) :
    registry.contains (stem ++ "[]") = false := by
  have hnone : registry.get? (stem ++ "[]") = none := by
    rw [get?, List.lookup_eq_none_iff]
    intro binding hbinding
    have hplain := h binding hbinding
    rw [bne_iff_ne]
    intro hkey
    rw [← hkey, Parameters.listName?_eq_some_iff.mpr rfl] at hplain
    cases hplain
  rw [contains, hnone]
  rfl

/-- Where no list key is bound, the steps of a plan are named by keys that are no list keys. -/
lemma listName?_of_reads (hplain : ∀ stem, registry.contains (stem ++ "[]") = false)
    {step : PlanStep} (h : registry.Reads step) : Parameters.listName? step.name = none := by
  obtain ⟨directive, hget, -⟩ := h
  rw [Option.eq_none_iff_forall_ne_some]
  intro stem hstem
  have hfree := hplain stem
  rw [← Parameters.listName?_eq_some_iff.mp hstem, contains, hget] at hfree
  cases hfree

/-- The pairs of a plan are read back one by one, in the order of its steps. -/
lemma occurrences_pairs (hplain : ∀ stem, registry.contains (stem ++ "[]") = false)
    (hdistinct : params.names.Nodup) (h : registry.plan params = .ok plan) :
    (Parameters.ofPairs (Plan.pairs plan)).occurrences = plan.map PlanStep.occurrence := by
  have hocc : plan.map PlanStep.occurrence = params.forcedLast.occurrences := by
    rw [occurrences_of_plan h, Parameters.occurrences_forcedLast]
  have hpairs : Plan.pairs plan = params.forcedLast.occurrences.map Occurrence.pair := by
    rw [← hocc, List.map_map]
    rfl
  rw [hpairs, hocc]
  apply Parameters.occurrences_regrouped (Parameters.nodup_names_forcedLast hdistinct)
  intro occurrence hoccurrence
  rw [← hocc] at hoccurrence
  obtain ⟨step, hstep, rfl⟩ := List.mem_map.mp hoccurrence
  exact listName?_of_reads hplain (reads_of_plan h step hstep)

/-- A request for the steps of a plan has that plan. -/
lemma plan_pairs (hplain : ∀ stem, registry.contains (stem ++ "[]") = false)
    (hdistinct : params.names.Nodup) (h : registry.plan params = .ok plan) :
    registry.plan (.ofPairs (Plan.pairs plan)) = .ok plan := by
  obtain ⟨steps, -, -, hlast⟩ := plan_eq_ok_iff.mp h
  refine plan_eq_ok_iff.mpr
    ⟨plan, (occurrences_pairs hplain hdistinct h).symm, reads_of_plan h, ?_⟩
  rw [hlast, forceLast_forceLast]

/-- No step of a plan has a name that was taken out before. -/
lemma contains_eq_false_of_plan {reserved : ReservedNames}
    (h : registry.plan (params.without reserved) = .ok plan) {step : PlanStep}
    (hstep : step ∈ plan) : reserved.contains step.name = false := by
  have hmem : step.occurrence ∈ (params.without reserved).occurrences := by
    rw [← (forceLast_perm _ _).mem_iff, ← occurrences_of_plan h]
    exact List.mem_map_of_mem hstep
  have hname := Parameters.mem_names_of_mem_occurrences hmem
  rw [Parameters.names_without, List.mem_filter] at hname
  have hkept : (!reserved.contains step.name) = true := hname.2
  simpa using hkept

end Registry

namespace Dialect

variable {dialect : Dialect} {params : Parameters} {plan : Plan}

lemma plan_pairs (hplain : ∀ stem, dialect.registry.contains (stem ++ "[]") = false)
    (hdistinct : params.names.Nodup) (h : dialect.plan params = .ok plan) :
    dialect.plan (.ofPairs (Plan.pairs plan)) = .ok plan := by
  have hkept : (Parameters.ofPairs (Plan.pairs plan)).without dialect.reserved =
      .ofPairs (Plan.pairs plan) := by
    rw [Parameters.without_ofPairs, ReservedNames.directivePairs, List.filter_eq_self.mpr]
    intro pair hpair
    obtain ⟨step, hstep, rfl⟩ := List.mem_map.mp hpair
    have hname := Registry.listName?_of_reads hplain (Registry.reads_of_plan h step hstep)
    rw [Parameters.baseName_of_plain hname, Registry.contains_eq_false_of_plan h hstep]
    rfl
  rw [Dialect.plan, directives, hkept]
  exact Registry.plan_pairs hplain (Parameters.nodup_names_without hdistinct _) h

/-- Replaying a compiled request is the identity. In a dialect without list keys, a request with
distinct names has the same plan as the record of that plan, and so the record compiles to what
the request compiled to, the steps included, against every entity. -/
theorem replay_is_identity (dialect : Dialect)
    (hplain : ∀ stem, dialect.registry.contains (stem ++ "[]") = false) (params : Parameters)
    (hdistinct : params.names.Nodup) :
    (∀ plan, dialect.plan params = .ok plan →
      dialect.plan (.ofPairs (Plan.pairs plan)) = .ok plan) ∧
    ∀ {Query : Type} (entity : Entity Query) (compiled : Compiled Query),
      dialect.compile params entity = .ok compiled →
        dialect.compile (.ofPairs (Plan.pairs compiled.plan)) entity = .ok compiled := by
  refine ⟨fun plan h => plan_pairs hplain hdistinct h, fun entity compiled h => ?_⟩
  obtain ⟨hplan, -⟩ := run_of_compile h
  have hsame := (plan_pairs hplain hdistinct hplan).trans hplan.symm
  exact (compile_congr_of_plan hsame).trans h

/-- A host has bound a directive of its own. The forced scopes come first and are replayed last,
the page number and the list without texts are not replayed. -/
theorem replay_is_identity_own_directive :
    let dialect : Dialect := ⟨⟨Registry.builtin.bindings ++
      [("newest", .fixed ["created_at"] [.orderBy ⟨"created_at", .desc⟩])]⟩, {}⟩
    let entity := (Model.mk "User" "users" (some "deleted_at") [] (.allOf "users")).entity
    let params : Parameters := ⟨[("force", .multi ["only_trashed", " with_trashed"]),
      ("tag[]", .multi []), ("where", .multi ["a:eq:1", "b:lk:x%"]), ("page", .single "3"),
      ("newest", .single ""), ("or_where_in", .multi ["c:(1,2)"])]⟩
    let record := [("where", "a:eq:1"), ("where", "b:lk:x%"), ("newest", ""),
      ("or_where_in", "c:(1,2)"), ("force", "only_trashed"), ("force", " with_trashed")]
    ∃ compiled, dialect.compile params entity = .ok compiled ∧
      Plan.pairs compiled.plan = record ∧
      dialect.compile (.ofPairs record) entity = .ok compiled := by
  intro dialect entity params record
  have hplain : ∀ stem, dialect.registry.contains (stem ++ "[]") = false :=
    Registry.contains_listKey_of_bindings (by decide)
  obtain ⟨compiled, hcompiled, hrecord⟩ : ∃ compiled,
      dialect.compile params entity = .ok compiled ∧ Plan.pairs compiled.plan = record :=
    ⟨_, rfl, rfl⟩
  have hreplay := (replay_is_identity dialect hplain params (by decide)).2 entity compiled hcompiled
  rw [hrecord] at hreplay
  exact ⟨compiled, hcompiled, hrecord, hreplay⟩

end Dialect

end ParamQuery
