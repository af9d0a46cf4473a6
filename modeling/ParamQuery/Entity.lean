import ParamQuery.Fragment

/-!
# Entities

An entity is what a request is compiled against: a fresh query of some type and the step by
which a query answers a call. A query may refuse any call, and may change even then. A fragment is
followed call by call, and gets the answers.
-/

namespace ParamQuery

structure Entity (Query : Type) where
  table : String
  /-- What is selected when a request names no columns. -/
  defaultProjection : Projection
  fresh : Query
  /-- The query after a call, with the refusal if the call was not taken. -/
  issue : Query → Call → Query × Option QueryError

namespace Entity

variable {Query : Type}

/-- The query after a fragment, with the refusal that the fragment returned. -/
def follow (entity : Entity Query) (query : Query) : Fragment → Query × Option QueryError
  | .done => (query, none)
  | .refuse refusal => (query, some refusal)
  | .call first next =>
    match entity.issue query first with
    | (changed, answer) => entity.follow changed (next answer)

theorem follow_call {entity : Entity Query} {query changed : Query} {first : Call}
    {next : Option QueryError → Fragment} {answer : Option QueryError}
    (h : entity.issue query first = (changed, answer)) :
    entity.follow query (.call first next) = entity.follow changed (next answer) := by
  rw [follow, h]

theorem follow_issuing_singleton (entity : Entity Query) (query : Query) (call : Call) :
    entity.follow query (.issuing [call]) = entity.issue query call := by
  cases hissue : entity.issue query call with
  | mk changed answer =>
    rw [Fragment.issuing, follow_call hissue]
    cases answer <;> rfl

end Entity

end ParamQuery
