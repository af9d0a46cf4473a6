import ParamQuery.Entity

/-!
# Reference queries

A reference query records what was asked of one model. Every call but two always succeeds:
including a relation needs a relation of the model, and restricting the scope needs a model
that deletes softly.
-/

namespace ParamQuery

structure Model where
  name : String
  table : String
  /-- The column that marks a row as deleted. -/
  softDelete : Option String := none
  relations : List String := []
  defaultProjection : Projection := .allOf table
  deriving DecidableEq, Repr

structure Query where
  model : Model
  projection : Option Projection := none
  predicate : Option Predicate := none
  order : List SortKey := []
  relations : List String := []
  limit : Option UInt32 := none
  offset : UInt32 := 0
  scope : Scope := .withoutTrashed

/-- Appends the names that are not there yet, each at its first occurrence. -/
def appendMissing (known names : List String) : List String :=
  names.foldl (fun known name => if name ∈ known then known else known ++ [name]) known

/-- Column lists accumulate; any other projection replaces the one before. -/
def Projection.after (existing : Option Projection) (next : Projection) : Projection :=
  match existing, next with
  | some (.columns known), .columns names => .columns (appendMissing known names)
  | _, next => next

namespace Query

/-- Whether nothing was requested; the projection does not count. -/
def isUnfiltered (q : Query) : Bool :=
  q.predicate.isNone && q.order.isEmpty && q.relations.isEmpty && q.limit.isNone &&
    q.offset == 0 && q.scope == .withoutTrashed

def issue (q : Query) : Call → Except QueryError Query
  | .filter conjunction predicate =>
    .ok { q with predicate := some (Predicate.join q.predicate conjunction predicate) }
  | .orderBy key => .ok { q with order := q.order ++ [key] }
  | .select projection =>
    .ok { q with projection := some (Projection.after q.projection projection) }
  | .limit count => .ok { q with limit := some count }
  | .offset count => .ok { q with offset := count }
  | .withRelation relation =>
    if relation ∈ q.model.relations then
      .ok { q with relations := appendMissing q.relations [relation] }
    else .error (.unknownRelation q.model.name relation)
  | .withScope scope =>
    if q.model.softDelete.isSome then .ok { q with scope := scope }
    else .error (.softDeleteUnsupported q.model.name)

end Query

def Model.entity (model : Model) : Entity Query where
  table := model.table
  defaultProjection := model.defaultProjection
  fresh := { model := model }
  issue query call :=
    match query.issue call with
    | .ok next => (next, none)
    | .error refusal => (query, some refusal)

end ParamQuery
