import ParamQuery.Predicate

/-!
# Query calls

The vocabulary in which a request speaks to a query under construction, and the refusals with
which a query may answer. A call is data: what it does is up to the entity that receives it.
-/

namespace ParamQuery

/-- Visibility of logically deleted rows. -/
inductive Scope where
  | withoutTrashed | withTrashed | onlyTrashed
  deriving DecidableEq, Repr

namespace Scope

def name : Scope → String
  | .withoutTrashed => "without_trashed"
  | .withTrashed => "with_trashed"
  | .onlyTrashed => "only_trashed"

def ofName? : String → Option Scope
  | "without_trashed" => some .withoutTrashed
  | "with_trashed" => some .withTrashed
  | "only_trashed" => some .onlyTrashed
  | _ => none

theorem ofName?_name (s : Scope) : ofName? s.name = some s := by
  cases s <;> rfl

theorem name_of_ofName? {text : String} {scope : Scope} (h : ofName? text = some scope) :
    scope.name = text := by
  unfold ofName? at h
  split at h
  case h_4 => cases h
  all_goals
    cases h
    rfl

end Scope

inductive Direction where
  | asc | desc
  deriving DecidableEq, Repr

structure SortKey where
  field : String
  direction : Direction
  deriving DecidableEq, Repr

/-- The columns of the answer: all those of a table, or a list in request order. -/
inductive Projection where
  | allOf (table : String)
  | columns (names : List String)
  deriving DecidableEq, Repr

inductive Call where
  | filter (conjunction : Conjunction) (predicate : Predicate)
  | orderBy (key : SortKey)
  | select (projection : Projection)
  | limit (count : UInt32)
  | offset (count : UInt32)
  | withRelation (relation : String)
  | withScope (scope : Scope)

/-- Why a query refuses a call. -/
inductive QueryError where
  | softDeleteUnsupported (entity : String)
  | unknownRelation (entity relation : String)
  | unsupported (operation : String)
  deriving DecidableEq, Repr

def QueryError.message : QueryError → String
  | .softDeleteUnsupported entity => s!"entity '{entity}' does not support soft-delete scoping"
  | .unknownRelation entity relation => s!"entity '{entity}' has no relation '{relation}'"
  | .unsupported operation => s!"{operation} is not supported by this query"

end ParamQuery
