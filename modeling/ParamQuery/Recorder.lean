import ParamQuery.Entity

/-!
# Recording entities

A recorder's query is the log of the calls it took. It knows neither relations nor scopes, and
a budget may bound how many calls of one operation it takes.
-/

namespace ParamQuery

def Call.operation : Call → String
  | .filter .. => "filter"
  | .orderBy _ => "order_by"
  | .select _ => "select"
  | .limit _ => "limit"
  | .offset _ => "offset"
  | .withRelation _ => "relation inclusion"
  | .withScope _ => "soft-delete scoping"

namespace Recorder

/-- Operations with the number of calls that succeed; an operation not listed has no bound. -/
abbrev Budget := List (String × Nat)

def takes (budget : Budget) (log : List Call) : Call → Bool
  | .withRelation _ | .withScope _ => false
  | call =>
    match budget.lookup call.operation with
    | none => true
    | some bound => log.countP (fun c => c.operation == call.operation) < bound

def issue (budget : Budget) (log : List Call) (call : Call) : List Call × Option QueryError :=
  if takes budget log call then (log ++ [call], none)
  else (log, some (.unsupported call.operation))

def entity (table : String) (budget : Budget) : Entity (List Call) where
  table := table
  defaultProjection := .allOf table
  fresh := []
  issue := issue budget

end Recorder

end ParamQuery
