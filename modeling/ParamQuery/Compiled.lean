import ParamQuery.Plan
import ParamQuery.Query.Basic

/-!
# Applied plans

A plan is applied to a fresh query of an entity, step by step. The default projection is
selected first unless some step of the plan names columns. The first refusal that a step returns
ends the application and is laid to this step. What was applied is told by summaries of
the steps.
-/

namespace ParamQuery

/-- The record of an applied step. -/
structure Summary where
  name : String
  raw : String
  tokens : List String
  deriving DecidableEq, Repr

def PlanStep.summary (step : PlanStep) : Summary := ⟨step.name, step.raw, step.reading.tokens⟩

structure Compiled (Query : Type) where
  query : Query
  plan : Plan

namespace Compiled

variable {Query : Type}

def directives (compiled : Compiled Query) : List Summary := compiled.plan.map PlanStep.summary

def hasDirective (compiled : Compiled Query) (name : String) : Bool :=
  compiled.directives.any fun summary => summary.name == name

def firstArgument (compiled : Compiled Query) (name : String) : UInt64 :=
  firstInteger (compiled.directives.map fun summary => (summary.name, summary.tokens)) name

/-- The row cap that was asked for first; zero if there is none. -/
def limit (compiled : Compiled Query) : UInt64 := compiled.firstArgument "limit"

end Compiled

namespace Plan

variable {Query : Type}

/-- The query before the first step, with the fault if its projection was refused. -/
def start (plan : Plan) (entity : Entity Query) : Query × Option CompileError :=
  if plan.hasDirective "columns" then (entity.fresh, none)
  else
    let (query, refusal) := entity.issue entity.fresh (.select entity.defaultProjection)
    (query, refusal.map (.defaultProjection entity.table))

def applyStep (entity : Entity Query) (query : Query) (step : PlanStep) :
    Query × Option CompileError :=
  let (next, refusal) := entity.follow query step.reading.fragment
  (next, refusal.map (.unsupportedOperation step.name))

/-- Applies steps up to and including the first that returns a refusal. -/
def applyAll (entity : Entity Query) (query : Query) : List PlanStep → Query × Option CompileError
  | [] => (query, none)
  | step :: rest =>
    match applyStep entity query step with
    | (next, none) => applyAll entity next rest
    | (next, some fault) => (next, some fault)

/-- The query as far as the plan was applied, with the fault that ended the application. -/
def run (plan : Plan) (entity : Entity Query) : Query × Option CompileError :=
  match plan.start entity with
  | (query, none) => applyAll entity query plan
  | (query, some fault) => (query, some fault)

end Plan

end ParamQuery
