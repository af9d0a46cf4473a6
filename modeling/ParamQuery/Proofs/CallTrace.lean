import ParamQuery.Proofs.PlanReading

/-!
# The calls of a compilation

A compilation reads the whole request before it makes any call. Then it selects the default
projection if no column is named, and follows the fragments of its steps until one of them returns a
refusal. Where all fragments are heedful this is the same as making the calls of a script up to and
including the first refused one. The calls are observed by an entity that logs them; the log is kept
also when the compilation fails.
-/

namespace ParamQuery

variable {Query : Type}

namespace Entity

/-- The same entity, with queries that keep every call made on them, refused ones included. -/
def logged (entity : Entity Query) : Entity (Query × List Call) where
  table := entity.table
  defaultProjection := entity.defaultProjection
  fresh := (entity.fresh, [])
  issue state call :=
    let (next, refusal) := entity.issue state.1 call
    ((next, state.2 ++ [call]), refusal)

/-- The calls that a fragment makes on a query, refused ones included. -/
def callsOn (entity : Entity Query) (query : Query) : Fragment → List Call
  | .call first next =>
    match entity.issue query first with
    | (changed, answer) => first :: entity.callsOn changed (next answer)
  | _ => []

lemma follow_logged (entity : Entity Query) (query : Query) (log : List Call)
    (fragment : Fragment) :
    entity.logged.follow (query, log) fragment =
      (((entity.follow query fragment).1, log ++ entity.callsOn query fragment),
        (entity.follow query fragment).2) := by
  induction fragment generalizing query log with
  | done => simp [follow, callsOn]
  | refuse refusal => simp [follow, callsOn]
  | call first next ih =>
    cases hissue : entity.issue query first with
    | mk changed answer =>
      have hlogged :
          entity.logged.issue (query, log) first = ((changed, log ++ [first]), answer) := by
        simp only [logged, hissue]
      rw [follow_call hlogged, follow_call hissue, callsOn, hissue, ih answer changed,
        List.append_assoc]
      rfl

/-- The calls are taken one after the other, from the first query to the last. -/
inductive Takes (entity : Entity Query) : Query → List Call → Query → Prop where
  | nil (query : Query) : Takes entity query [] query
  | cons {query next last : Query} {call : Call} {rest : List Call} :
      entity.issue query call = (next, none) → Takes entity next rest last →
      Takes entity query (call :: rest) last

/-- The fault of a refused call: the directive that made it is named, the default projection
has none. -/
def blame (entity : Entity Query) : Option String → QueryError → CompileError
  | none, refusal => .defaultProjection entity.table refusal
  | some name, refusal => .unsupportedOperation name refusal

/-- Makes calls for their authors up to and including the first refused one. -/
def perform (entity : Entity Query) (query : Query) :
    List (Option String × Call) → Query × Option CompileError
  | [] => (query, none)
  | (author, call) :: rest =>
    match entity.issue query call with
    | (next, none) => entity.perform next rest
    | (next, some refusal) => (next, some (entity.blame author refusal))

lemma perform_append (entity : Entity Query) (query : Query)
    (first second : List (Option String × Call)) :
    entity.perform query (first ++ second) =
      match entity.perform query first with
      | (next, none) => entity.perform next second
      | (next, some fault) => (next, some fault) := by
  induction first generalizing query with
  | nil => rfl
  | cons line rest ih =>
    obtain ⟨author, call⟩ := line
    simp only [List.cons_append, perform]
    cases entity.issue query call with
    | mk next refusal =>
      cases refusal with
      | none => exact ih next
      | some refusal => rfl

lemma perform_of_takes {entity : Entity Query} {query last : Query}
    {script : List (Option String × Call)}
    (h : entity.Takes query (script.map Prod.snd) last) :
    entity.perform query script = (last, none) := by
  induction script generalizing query with
  | nil =>
    cases h
    rfl
  | cons line rest ih =>
    cases h with
    | cons taken more =>
      rw [perform, taken]
      exact ih more

lemma perform_of_refused {entity : Entity Query} {query reached next : Query}
    {made rest : List (Option String × Call)} {author : Option String} {call : Call}
    {refusal : QueryError} (htakes : entity.Takes query (made.map Prod.snd) reached)
    (hrefused : entity.issue reached call = (next, some refusal)) :
    entity.perform query (made ++ (author, call) :: rest) =
      (next, some (entity.blame author refusal)) := by
  rw [perform_append, perform_of_takes htakes]
  simp only [perform, hrefused]

lemma takes_of_perform {entity : Entity Query} {query last : Query}
    {script : List (Option String × Call)} (h : entity.perform query script = (last, none)) :
    entity.Takes query (script.map Prod.snd) last := by
  induction script generalizing query with
  | nil =>
    cases h
    exact .nil _
  | cons line rest ih =>
    obtain ⟨author, call⟩ := line
    rw [perform] at h
    cases hissue : entity.issue query call with
    | mk next refusal =>
      rw [hissue] at h
      cases refusal with
      | none => exact .cons hissue (ih h)
      | some refusal => simp at h

lemma takes_logged {entity : Entity Query} {query last : Query} {calls : List Call}
    (h : entity.Takes query calls last) (log : List Call) :
    entity.logged.Takes (query, log) calls (last, log ++ calls) := by
  induction h generalizing log with
  | nil query =>
    rw [List.append_nil]
    exact .nil _
  | @cons query next last call rest taken more ih =>
    have hlogged : entity.logged.issue (query, log) call = ((next, log ++ [call]), none) := by
      simp only [logged, taken]
    have hrest := ih (log ++ [call])
    rw [List.append_assoc] at hrest
    exact .cons hlogged hrest

lemma issue_logged_of_refused {entity : Entity Query} {query next : Query} {call : Call}
    {refusal : QueryError} (h : entity.issue query call = (next, some refusal))
    (log : List Call) :
    entity.logged.issue (query, log) call = ((next, log ++ [call]), some refusal) := by
  simp only [logged, h]

end Entity

namespace Plan

/-- The steps are applied up to and including the first that returns a refusal, which is then the
fault of the run. The calls are those that each step makes on the query that it finds. -/
inductive Runs (entity : Entity Query) : Query → List PlanStep → List Call → Query →
    Option CompileError → Prop
  | nil (query : Query) : Runs entity query [] [] query none
  | taken {query next last : Query} {step : PlanStep} {rest : List PlanStep} {calls : List Call}
      {fault : Option CompileError} :
      entity.follow query step.reading.fragment = (next, none) →
      Runs entity next rest calls last fault →
      Runs entity query (step :: rest) (entity.callsOn query step.reading.fragment ++ calls) last
        fault
  | refused {query next : Query} {step : PlanStep} {rest : List PlanStep} {refusal : QueryError} :
      entity.follow query step.reading.fragment = (next, some refusal) →
      Runs entity query (step :: rest) (entity.callsOn query step.reading.fragment) next
        (some (entity.blame (some step.name) refusal))

section Running

variable {entity : Entity Query} {query last : Query} {steps : List PlanStep} {calls : List Call}
  {fault : Option CompileError}

lemma exists_runs (entity : Entity Query) (query : Query) (steps : List PlanStep) :
    ∃ calls last fault, Runs entity query steps calls last fault := by
  induction steps generalizing query with
  | nil => exact ⟨_, _, _, .nil query⟩
  | cons step rest ih =>
    cases hfollow : entity.follow query step.reading.fragment with
    | mk next refusal =>
      cases refusal with
      | some refusal => exact ⟨_, _, _, .refused hfollow⟩
      | none =>
        obtain ⟨calls, last, fault, hrest⟩ := ih next
        exact ⟨_, _, _, .taken hfollow hrest⟩

lemma applyAll_of_runs (h : Runs entity query steps calls last fault) :
    applyAll entity query steps = (last, fault) := by
  induction h with
  | nil query => rfl
  | taken hfollow _ ih =>
    rw [applyAll, applyStep, hfollow]
    exact ih
  | refused hfollow =>
    rw [applyAll, applyStep, hfollow]
    rfl

/-- The steps run in the same way on the entity that logs, and the log grows by their calls. -/
lemma applyAll_logged_of_runs (h : Runs entity query steps calls last fault)
    (log : List Call) :
    applyAll entity.logged (query, log) steps = ((last, log ++ calls), fault) := by
  induction h generalizing log with
  | nil query =>
    rw [List.append_nil]
    rfl
  | taken hfollow _ ih =>
    rw [applyAll, applyStep, Entity.follow_logged, hfollow, ← List.append_assoc]
    exact ih _
  | refused hfollow =>
    rw [applyAll, applyStep, Entity.follow_logged, hfollow]
    rfl

end Running

/-- The calls that the steps make as long as all are taken, each with the name of its directive. -/
def lines (steps : List PlanStep) : List (Option String × Call) :=
  steps.flatMap fun step => step.reading.calls.map fun call => (some step.name, call)

/-- What is selected before the first step: the given projection, unless a step names columns. -/
def opening (plan : Plan) (projection : Projection) : List Call :=
  if plan.any (fun step => step.name == "columns") then [] else [.select projection]

/-- The calls that a plan makes as long as all are taken, with their authors. -/
def script (plan : Plan) (projection : Projection) : List (Option String × Call) :=
  (plan.opening projection).map (fun call => (none, call)) ++ lines plan

lemma applyStep_eq_perform (entity : Entity Query) (query : Query) {step : PlanStep}
    (h : step.reading.fragment.Heedful) :
    applyStep entity query step =
      entity.perform query (step.reading.calls.map fun call => (some step.name, call)) := by
  rw [applyStep, ← Fragment.issuing_calls h, Reading.calls]
  induction step.reading.fragment.calls generalizing query with
  | nil => rfl
  | cons call rest ih =>
    cases hissue : entity.issue query call with
    | mk next refusal =>
      rw [Fragment.issuing, Entity.follow_call hissue, List.map_cons, Entity.perform, hissue]
      cases refusal with
      | none => exact ih next
      | some refusal => rfl

lemma applyAll_eq_perform (entity : Entity Query) (query : Query) {steps : List PlanStep}
    (h : ∀ step ∈ steps, step.reading.fragment.Heedful) :
    applyAll entity query steps = entity.perform query (lines steps) := by
  induction steps generalizing query with
  | nil => rfl
  | cons step rest ih =>
    obtain ⟨hstep, hrest⟩ := List.forall_mem_cons.mp h
    simp only [applyAll, lines, List.flatMap_cons, Entity.perform_append,
      ← applyStep_eq_perform entity _ hstep]
    cases applyStep entity query step with
    | mk next fault =>
      cases fault with
      | none => exact ih next hrest
      | some fault => rfl

lemma hasDirective_eq_any (plan : Plan) (name : String) :
    plan.hasDirective name = plan.any (fun step => step.name == name) := by
  rw [Bool.eq_iff_iff]
  simp [hasDirective, names]

lemma start_eq_perform (plan : Plan) (entity : Entity Query) :
    plan.start entity = entity.perform entity.fresh
      ((plan.opening entity.defaultProjection).map fun call => (none, call)) := by
  rw [start, opening, hasDirective_eq_any]
  split
  · rfl
  · rw [List.map_singleton, Entity.perform]
    obtain ⟨next, refusal⟩ := entity.issue entity.fresh (.select entity.defaultProjection)
    cases refusal <;> rfl

lemma start_eq_iff_takes {plan : Plan} {entity : Entity Query} {start : Query} :
    plan.start entity = (start, none) ↔
      entity.Takes entity.fresh (plan.opening entity.defaultProjection) start := by
  have hcalls : ((plan.opening entity.defaultProjection).map fun call =>
      ((none : Option String), call)).map Prod.snd = plan.opening entity.defaultProjection := by
    simp [Function.comp_def]
  rw [start_eq_perform]
  constructor
  · intro h
    rw [← hcalls]
    exact Entity.takes_of_perform h
  · intro h
    rw [← hcalls] at h
    exact Entity.perform_of_takes h

lemma run_of_opening_refused {plan : Plan} {entity : Entity Query} {next : Query} {call : Call}
    {refusal : QueryError} (hopening : plan.opening entity.defaultProjection = [call])
    (hrefused : entity.issue entity.fresh call = (next, some refusal)) :
    plan.run entity = (next, some (entity.blame none refusal)) := by
  rw [run, start_eq_perform, hopening, List.map_singleton, Entity.perform, hrefused]

/-- Applying a plan of heedful steps is making the calls of its script. -/
theorem run_eq_perform {plan : Plan} (h : ∀ step ∈ plan, step.reading.fragment.Heedful)
    (entity : Entity Query) :
    plan.run entity = entity.perform entity.fresh (plan.script entity.defaultProjection) := by
  rw [run, script, Entity.perform_append, start_eq_perform]
  obtain ⟨next, fault⟩ := entity.perform entity.fresh
    ((plan.opening entity.defaultProjection).map fun call => (none, call))
  cases fault with
  | none => exact applyAll_eq_perform entity next h
  | some fault => rfl

lemma any_name_forceLast (isForce : PlanStep → Bool) (steps : List PlanStep) (name : String) :
    (forceLast isForce steps).any (fun step => step.name == name) =
      (steps.map PlanStep.occurrence).any (fun occurrence => occurrence.name == name) := by
  rw [(forceLast_perm isForce steps).any_eq, List.any_map]
  rfl

end Plan

namespace Dialect

variable {dialect : Dialect} {params : Parameters} {plan : Plan} {entity : Entity Query}

lemma build_of_fault {fault : CompileError} (hplan : dialect.plan params = .error fault) :
    dialect.build params entity = (entity.fresh, .error fault) := by
  rw [build, hplan]

lemma build_of_run {last : Query} {fault : Option CompileError}
    (hplan : dialect.plan params = .ok plan) (hrun : plan.run entity = (last, fault)) :
    dialect.build params entity = (last, fault.elim (.ok plan) .error) := by
  rw [build, hplan]
  simp only [hrun]
  cases fault <;> rfl

lemma compile_of_build {query : Query} {result : Except CompileError Plan}
    (h : dialect.build params entity = (query, result)) :
    dialect.compile params entity = result.map (fun plan => ⟨query, plan⟩) := by
  rw [compile, h]
  cases result <;> rfl

/-- Requests with the same plan have the same outcome, also in different dialects. -/
lemma compile_congr_of_plan {other : Dialect} {others : Parameters}
    (h : dialect.plan params = other.plan others) :
    dialect.compile params entity = other.compile others entity := by
  rw [compile, compile, build, build, h]

/-- A request that compiles was read into a plan, and the plan was run without a fault. -/
lemma run_of_compile {compiled : Compiled Query}
    (h : dialect.compile params entity = .ok compiled) :
    dialect.plan params = .ok compiled.plan ∧
      compiled.plan.run entity = (compiled.query, none) := by
  rw [compile, build] at h
  cases hplan : dialect.plan params with
  | error fault => simp [hplan] at h
  | ok plan =>
    simp only [hplan] at h
    cases hrun : plan.run entity with
    | mk last fault =>
      rw [hrun] at h
      cases fault with
      | some fault => simp at h
      | none =>
        cases h
        exact ⟨rfl, hrun⟩

lemma takes_of_compile {compiled : Compiled Query}
    (h : dialect.compile params entity = .ok compiled)
    (hheedful : ∀ step ∈ compiled.plan, step.reading.fragment.Heedful) :
    entity.Takes entity.fresh ((compiled.plan.script entity.defaultProjection).map Prod.snd)
      compiled.query := by
  obtain ⟨-, hrun⟩ := run_of_compile h
  rw [Plan.run_eq_perform hheedful] at hrun
  exact Entity.takes_of_perform hrun

/-- What a request comes to: the calls that are made, refused ones included, the query that they
leave, and the plan or the fault. -/
structure Ends (dialect : Dialect) (params : Parameters) (entity : Entity Query)
    (calls : List Call) (last : Query) (result : Except CompileError Plan) : Prop where
  build : dialect.build params entity.logged = ((last, calls), result)
  compile : dialect.compile params entity = result.map fun plan => ⟨last, plan⟩

lemma ends_of_fault {fault : CompileError} (hplan : dialect.plan params = .error fault) :
    dialect.Ends params entity [] entity.fresh (.error fault) :=
  ⟨build_of_fault hplan, compile_of_build (build_of_fault hplan)⟩

/-- The projection that is selected first is refused. -/
lemma ends_of_opening_refused {next : Query} {refusal : QueryError} {call : Call}
    (hplan : dialect.plan params = .ok plan)
    (hopening : plan.opening entity.defaultProjection = [call])
    (hrefused : entity.issue entity.fresh call = (next, some refusal)) :
    dialect.Ends params entity [call] next (.error (entity.blame none refusal)) := by
  have hrun := Plan.run_of_opening_refused hopening hrefused
  have hlogged : plan.run entity.logged = ((next, [call]), some (entity.blame none refusal)) :=
    Plan.run_of_opening_refused hopening (Entity.issue_logged_of_refused hrefused [])
  exact ⟨build_of_run hplan hlogged, compile_of_build (build_of_run hplan hrun)⟩

/-- The opening is taken, and the steps run as they do. -/
lemma ends_of_runs {start last : Query} {calls : List Call} {fault : Option CompileError}
    (hplan : dialect.plan params = .ok plan)
    (hopening : entity.Takes entity.fresh (plan.opening entity.defaultProjection) start)
    (hruns : Plan.Runs entity start plan calls last fault) :
    dialect.Ends params entity (plan.opening entity.defaultProjection ++ calls) last
      (fault.elim (.ok plan) .error) := by
  have hrun : plan.run entity = (last, fault) := by
    rw [Plan.run, Plan.start_eq_iff_takes.mpr hopening]
    exact Plan.applyAll_of_runs hruns
  have hlogged : plan.run entity.logged =
      ((last, plan.opening entity.defaultProjection ++ calls), fault) := by
    rw [Plan.run, Plan.start_eq_iff_takes.mpr (Entity.takes_logged hopening [])]
    exact Plan.applyAll_logged_of_runs hruns _
  exact ⟨build_of_run hplan hlogged, compile_of_build (build_of_run hplan hrun)⟩

section Heedful

variable (hplan : dialect.plan params = .ok plan)
  (hheedful : ∀ step ∈ plan, step.reading.fragment.Heedful)

include hplan hheedful

lemma build_of_takes {last : Query}
    (htakes : entity.Takes entity.fresh ((plan.script entity.defaultProjection).map Prod.snd)
      last) :
    dialect.build params entity = (last, .ok plan) := by
  have hrun : plan.run entity = (last, none) := by
    rw [Plan.run_eq_perform hheedful, Entity.perform_of_takes htakes]
  exact build_of_run hplan hrun

lemma build_of_refused (entity : Entity Query) {reached next : Query}
    {made rest : List (Option String × Call)} {author : Option String} {call : Call}
    {refusal : QueryError}
    (hscript : plan.script entity.defaultProjection = made ++ (author, call) :: rest)
    (htakes : entity.Takes entity.fresh (made.map Prod.snd) reached)
    (hrefused : entity.issue reached call = (next, some refusal)) :
    dialect.build params entity = (next, .error (entity.blame author refusal)) := by
  have hrun : plan.run entity = (next, some (entity.blame author refusal)) := by
    rw [Plan.run_eq_perform hheedful, hscript, Entity.perform_of_refused htakes hrefused]
  exact build_of_run hplan hrun

lemma ends_of_takes {last : Query}
    (htakes : entity.Takes entity.fresh ((plan.script entity.defaultProjection).map Prod.snd)
      last) :
    dialect.Ends params entity ((plan.script entity.defaultProjection).map Prod.snd) last
      (.ok plan) :=
  ⟨build_of_takes hplan hheedful (Entity.takes_logged htakes []),
    compile_of_build (build_of_takes hplan hheedful htakes)⟩

lemma ends_of_refused {reached next : Query} {made rest : List (Option String × Call)}
    {author : Option String} {call : Call} {refusal : QueryError}
    (hscript : plan.script entity.defaultProjection = made ++ (author, call) :: rest)
    (htakes : entity.Takes entity.fresh (made.map Prod.snd) reached)
    (hrefused : entity.issue reached call = (next, some refusal)) :
    dialect.Ends params entity (made.map Prod.snd ++ [call]) next
      (.error (entity.blame author refusal)) :=
  ⟨build_of_refused hplan hheedful entity.logged hscript (Entity.takes_logged htakes [])
      (Entity.issue_logged_of_refused hrefused _),
    compile_of_build (build_of_refused hplan hheedful entity hscript htakes hrefused)⟩

end Heedful

end Dialect

end ParamQuery
