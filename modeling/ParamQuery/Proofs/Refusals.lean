import ParamQuery.Proofs.Catalogue
import ParamQuery.Recorder
import ParamQuery.Service

/-!
# Refusals

An entity may refuse any call, and what becomes of a refusal is up to the handler that made the
call. It may pass the refusal on, swallow it and go on, or refuse where nothing was refused to it.
The first handler that returns a refusal ends the compilation and is blamed for it. So a compilation
that succeeds need not be one without refused calls, unless all its handlers are heedful. The
built-in ones are.
-/

namespace ParamQuery

variable {Query : Type}

/-- A plan opens with the default projection unless an occurrence names columns. -/
lemma Plan.opening_forceLast {steps : List PlanStep} {occurrences : List Occurrence}
    (h : steps.map PlanStep.occurrence = occurrences) (isForce : PlanStep → Bool)
    (projection : Projection) :
    Plan.opening (forceLast isForce steps) projection =
      if occurrences.any (fun occurrence => occurrence.name == "columns") then []
      else [.select projection] := by
  rw [opening, any_name_forceLast, h]

namespace Dialect

variable {dialect : Dialect} {params : Parameters} {plan : Plan} {entity : Entity Query}

/-- A request compiles just if its opening is taken and no handler returns a refusal. -/
lemma compiles_iff_runs (hplan : dialect.plan params = .ok plan) :
    (∃ compiled, dialect.compile params entity = .ok compiled) ↔
      ∃ start calls last,
        entity.Takes entity.fresh (plan.opening entity.defaultProjection) start ∧
          Plan.Runs entity start plan calls last none := by
  constructor
  · rintro ⟨compiled, hcompiled⟩
    obtain ⟨hcompiledPlan, hrun⟩ := run_of_compile hcompiled
    obtain rfl := Except.ok.inj (hplan.symm.trans hcompiledPlan)
    rw [Plan.run] at hrun
    cases hstart : compiled.plan.start entity with
    | mk start fault =>
      rw [hstart] at hrun
      cases fault with
      | some fault => simp at hrun
      | none =>
        obtain ⟨calls, last, fault, hruns⟩ := Plan.exists_runs entity start compiled.plan
        obtain ⟨-, rfl⟩ := Prod.mk.inj ((Plan.applyAll_of_runs hruns).symm.trans hrun)
        exact ⟨start, calls, last, Plan.start_eq_iff_takes.mp hstart, hruns⟩
  · rintro ⟨start, calls, last, hopening, hruns⟩
    exact ⟨_, (ends_of_runs hplan hopening hruns).compile⟩

/-- Where all handlers are heedful it compiles just if no call is refused. -/
lemma compiles_iff_takes (hplan : dialect.plan params = .ok plan)
    (hheedful : ∀ step ∈ plan, step.reading.fragment.Heedful) :
    (∃ compiled, dialect.compile params entity = .ok compiled) ↔
      ∃ last,
        entity.Takes entity.fresh ((plan.script entity.defaultProjection).map Prod.snd) last := by
  constructor
  · rintro ⟨compiled, hcompiled⟩
    obtain ⟨hcompiledPlan, -⟩ := run_of_compile hcompiled
    obtain rfl := Except.ok.inj (hplan.symm.trans hcompiledPlan)
    exact ⟨compiled.query, takes_of_compile hcompiled hheedful⟩
  · rintro ⟨last, htakes⟩
    exact ⟨_, (ends_of_takes hplan hheedful htakes).compile⟩

/-- The course of every compilation. A request with a faulty occurrence fails with the fault of
the first one, before any call. Any other request opens with the default projection, unless it names
columns, and a refusal of this is internal. Then each handler makes its calls on the query that it
finds, the forced directives last, up to the end of the first handler that returns a refusal; the
request compiles just if none does, and otherwise the fault names that handler. If all handlers
are heedful, as the built-in ones are, then these are the calls up to and including the first
refused one, the request compiles just if no call is refused, and the fault names the author of the
refused call. -/
theorem compile_calls_and_blame (dialect : Dialect) (params : Parameters)
    (entity : Entity Query) :
    let occurrences := (params.without dialect.reserved).occurrences
    (∀ fault, occurrences.findSome? dialect.registry.fault? = some fault →
      dialect.Ends params entity [] entity.fresh (.error fault)) ∧
    (occurrences.findSome? dialect.registry.fault? = none →
      ∃ steps : List PlanStep, steps.map PlanStep.occurrence = occurrences ∧
        ∀ step ∈ steps, dialect.registry.Reads step) ∧
    (∀ steps : List PlanStep, steps.map PlanStep.occurrence = occurrences →
      (∀ step ∈ steps, dialect.registry.Reads step) →
      let plan := steps.filter (fun step => step.name != "force") ++
        steps.filter (fun step => step.name == "force")
      let opening : List Call :=
        if occurrences.any (fun occurrence => occurrence.name == "columns") then []
        else [.select entity.defaultProjection]
      (∀ call next refusal, opening = [call] →
        entity.issue entity.fresh call = (next, some refusal) →
        dialect.Ends params entity [call] next (.error (entity.blame none refusal))) ∧
      (∀ start, entity.Takes entity.fresh opening start →
        (∃ calls last fault, Plan.Runs entity start plan calls last fault) ∧
        ∀ calls last fault, Plan.Runs entity start plan calls last fault →
          dialect.Ends params entity (opening ++ calls) last (fault.elim (.ok plan) .error)) ∧
      ((∃ compiled, dialect.compile params entity = .ok compiled) ↔
        ∃ start calls last, entity.Takes entity.fresh opening start ∧
          Plan.Runs entity start plan calls last none) ∧
      ((∀ step ∈ plan, step.reading.fragment.Heedful) →
        let script := opening.map (fun call => (none, call)) ++ Plan.lines plan
        (∀ last, entity.Takes entity.fresh (script.map Prod.snd) last →
          dialect.Ends params entity (script.map Prod.snd) last (.ok plan)) ∧
        (∀ made author call rest reached next refusal,
          script = made ++ (author, call) :: rest →
          entity.Takes entity.fresh (made.map Prod.snd) reached →
          entity.issue reached call = (next, some refusal) →
          dialect.Ends params entity (made.map Prod.snd ++ [call]) next
            (.error (entity.blame author refusal))) ∧
        ((∃ compiled, dialect.compile params entity = .ok compiled) ↔
          ∃ last, entity.Takes entity.fresh (script.map Prod.snd) last))) ∧
    (∀ step, Registry.builtin.Reads step → step.reading.fragment.Heedful) ∧
    (∀ refusal, (entity.blame none refusal).problem.kind = .internal ∧
      (entity.blame none refusal).problem.directive = none ∧
      (entity.blame none refusal).problem.status = 500) ∧
    (∀ name refusal, (entity.blame (some name) refusal).problem.kind = .unsupportedOperation ∧
      (entity.blame (some name) refusal).problem.directive = some name ∧
      (entity.blame (some name) refusal).problem.status = 400) := by
  dsimp only
  refine ⟨fun fault hfault => ?_, fun hnone => ?_, fun steps hocc hreads => ?_,
    fun _ => PlanStep.heedful_of_reads, fun _ => ⟨rfl, rfl, rfl⟩, fun _ _ => ⟨rfl, rfl, rfl⟩⟩
  · exact ends_of_fault (Registry.plan_eq_error_iff.mpr hfault)
  · obtain ⟨plan, hplan⟩ := Registry.exists_plan_of_no_fault hnone
    obtain ⟨steps, hocc, hreads, -⟩ := Registry.plan_eq_ok_iff.mp hplan
    exact ⟨steps, hocc, hreads⟩
  · obtain ⟨plan, hlast⟩ :
        ∃ plan, plan = forceLast (fun step : PlanStep => step.name == "force") steps := ⟨_, rfl⟩
    have hplan : dialect.plan params = .ok plan :=
      Registry.plan_eq_ok_iff.mpr ⟨steps, hocc, hreads, hlast⟩
    have hsplit : steps.filter (fun step => step.name != "force") ++
        steps.filter (fun step => step.name == "force") = plan := hlast.symm
    rw [hsplit, ← Plan.opening_forceLast hocc (fun step => step.name == "force"), ← hlast]
    refine ⟨fun call next refusal => ends_of_opening_refused hplan, fun start hopening => ?_,
      compiles_iff_runs hplan, fun hheedful => ⟨fun last => ends_of_takes hplan hheedful, ?_,
        compiles_iff_takes hplan hheedful⟩⟩
    · exact ⟨Plan.exists_runs entity start plan,
        fun calls last fault => ends_of_runs hplan hopening⟩
    · intro made author call rest reached next refusal
      exact ends_of_refused hplan hheedful

/-- A recorder without room for a limit: the limit stands before the forced scope, so it is the
call that ends the request, although the scope would be refused too. A handler of the host's own is
blamed for its refusal, although its call is taken. -/
theorem compile_calls_and_blame_refused_limit :
    let params := Parameters.ofPairs
      [("force", "only_trashed"), ("limit", "7"), ("page", "2"), ("order_by", "-age")]
    let entity := Recorder.entity "users" [("limit", 0)]
    let veto : Fragment := .call (.offset 7) fun _ => .refuse (.unsupported "paging")
    let host : Dialect := ⟨⟨[("veto", ⟨veto, fun _ => pure ()⟩)]⟩, {}⟩
    Ends {} params entity [.select (.allOf "users"), .limit 7] [.select (.allOf "users")]
        (.error (.unsupportedOperation "limit" (.unsupported "limit"))) ∧
      host.Ends (.ofPairs [("veto", "")]) entity [.select (.allOf "users"), .offset 7]
        [.select (.allOf "users"), .offset 7]
        (.error (.unsupportedOperation "veto" (.unsupported "paging"))) := by
  intro params entity veto host
  have hreads : ∀ step ∈ [
        (⟨"force", "only_trashed", ⟨["only_trashed"], .issuing [.withScope .onlyTrashed]⟩⟩ :
          PlanStep),
        ⟨"limit", "7", ⟨["7"], .issuing [.limit 7]⟩⟩,
        ⟨"order_by", "-age", ⟨["-age"], .issuing [.orderBy ⟨"age", .desc⟩]⟩⟩],
      Registry.builtin.Reads step := by
    intro step hstep
    simp only [List.mem_cons, List.not_mem_nil, or_false] at hstep
    rcases hstep with rfl | rfl | rfl
    · exact ⟨.force, rfl, rfl⟩
    · exact ⟨.limit, rfl, rfl⟩
    · exact ⟨.orderBy, rfl, rfl⟩
  have hvetoReads : ∀ step ∈ [(⟨"veto", "", ⟨[], veto⟩⟩ : PlanStep)],
      host.registry.Reads step := by
    intro step hstep
    obtain rfl := List.mem_singleton.mp hstep
    exact ⟨_, rfl, rfl⟩
  obtain ⟨-, -, hbuiltin, hheedful, -⟩ := compile_calls_and_blame {} params entity
  obtain ⟨-, -, hhost, -⟩ := compile_calls_and_blame host (.ofPairs [("veto", "")]) entity
  have hvetoRuns : Plan.Runs entity [.select (.allOf "users")] [⟨"veto", "", ⟨[], veto⟩⟩]
      [.offset 7] [.select (.allOf "users"), .offset 7]
      (some (entity.blame (some "veto") (.unsupported "paging"))) := .refused rfl
  refine ⟨((hbuiltin _ rfl hreads).2.2.2 fun step hstep => hheedful step ?_).2.1
    [(none, .select (.allOf "users"))] (some "limit") (.limit 7) _ [.select (.allOf "users")]
    [.select (.allOf "users")] (.unsupported "limit") rfl (.cons rfl (.nil _)) rfl, ?_⟩
  · have hperm := forceLast_perm (fun step : PlanStep => step.name == "force")
    exact hreads step ((hperm _).subset hstep)
  · exact ((hhost _ rfl hvetoReads).2.1 _ (.cons rfl (.nil _))).2 _ _ _ hvetoRuns

/-- A handler that has another call for the case that its first one is refused lets the request
compile with a refused call. And the values of one name come together, so the first fault need not
be that of the first faulty parameter. -/
theorem heedless_handler_goes_on :
    let fallback : Fragment := .call (.withRelation "roles") fun
      | none => .done
      | some _ => .call (.limit 7) fun _ => .done
    let host : Dialect := ⟨⟨[("fallback", ⟨fallback, fun _ => pure ()⟩)]⟩, {}⟩
    let entity := Recorder.entity "users" []
    (entity.issue [.select (.allOf "users")] (.withRelation "roles")).2 =
        some (.unsupported "relation inclusion") ∧
      host.Ends (.ofPairs [("fallback", "")]) entity
        [.select (.allOf "users"), .withRelation "roles", .limit 7]
        [.select (.allOf "users"), .limit 7] (.ok [⟨"fallback", "", ⟨[], fallback⟩⟩]) ∧
      compile {} (.ofPairs [("offset", "1"), ("limit", "bad"), ("offset", "worse")]) entity =
        .error (.malformedArgument "offset" "worse" (.notAnInteger "worse")) := by
  intro fallback host entity
  exact ⟨rfl, ⟨rfl, rfl⟩, rfl⟩

end Dialect

end ParamQuery
