import ParamQuery.Compiled

/-!
# Dialects

A dialect is a directive language as one host speaks it: the directives in force and the
parameters that are none. A request is compiled by reading its directives into a plan and
applying the plan to an entity.
-/

namespace ParamQuery

structure Dialect where
  registry : Registry := .builtin
  reserved : ReservedNames := {}

namespace Dialect

def directives (dialect : Dialect) (params : Parameters) : Parameters :=
  params.without dialect.reserved

def plan (dialect : Dialect) (params : Parameters) : Except CompileError Plan :=
  dialect.registry.plan (dialect.directives params)

/-- Builds a query for a request. Nothing is built unless the whole request was read. -/
def build {Query : Type} (dialect : Dialect) (params : Parameters) (entity : Entity Query) :
    Query × Except CompileError Plan :=
  match dialect.plan params with
  | .error fault => (entity.fresh, .error fault)
  | .ok plan =>
    match plan.run entity with
    | (query, none) => (query, .ok plan)
    | (query, some fault) => (query, .error fault)

def compile {Query : Type} (dialect : Dialect) (params : Parameters) (entity : Entity Query) :
    Except CompileError (Compiled Query) :=
  match dialect.build params entity with
  | (query, .ok plan) => .ok ⟨query, plan⟩
  | (_, .error fault) => .error fault

end Dialect

end ParamQuery
