import ParamQuery.Registry
import ParamQuery.Parameters

/-!
# Plans

A plan is the list of readings that a request amounts to, in the order in which they will be
applied: the order of arrival, except that `force` comes last. The whole request is read
before anything is applied, so the fault reported is the first in order of arrival.
-/

namespace ParamQuery

/-- Why a request does not compile. -/
inductive CompileError where
  | unknownDirective (name : String)
  | malformedArgument (directive raw : String) (fault : ArgumentError)
  | unsupportedOperation (directive : String) (refusal : QueryError)
  | defaultProjection (table : String) (refusal : QueryError)
  deriving DecidableEq, Repr

namespace CompileError

def message : CompileError → String
  | .unknownDirective name => s!"unknown directive '{name}'"
  | .malformedArgument directive raw fault =>
    let cause := fault.message
    s!"malformed argument '{raw}' for directive '{directive}': {cause}"
  | .unsupportedOperation directive refusal =>
    let cause := refusal.message
    s!"directive '{directive}' rejected: {cause}"
  | .defaultProjection table refusal =>
    let cause := refusal.message
    s!"default projection of table '{table}' rejected: {cause}"

def directive? : CompileError → Option String
  | .unknownDirective name => some name
  | .malformedArgument directive .. => some directive
  | .unsupportedOperation directive _ => some directive
  | .defaultProjection .. => none

def blame : CompileError → Blame
  | .defaultProjection .. => .internal
  | _ => .clientInput

end CompileError

structure PlanStep where
  name : String
  raw : String
  reading : Reading

/-- The first token of the first entry of a name as a numeral; zero if there is none. -/
def firstInteger (entries : List (String × List String)) (name : String) : UInt64 :=
  let entry := entries.find? fun entry => entry.1 == name
  let token := entry.bind fun entry => entry.2.head?
  (token.bind fun token => Numeral.uint64? token.toList).getD 0

/-- The elements that are not forced, then those that are, both in order. -/
def forceLast {α : Type} (isForce : α → Bool) (entries : List α) : List α :=
  entries.filter (fun entry => !isForce entry) ++ entries.filter isForce

theorem forceLast_perm {α : Type} (isForce : α → Bool) (entries : List α) :
    (forceLast isForce entries).Perm entries := by
  rw [forceLast]
  have h := List.filter_append_perm (fun entry => !isForce entry) entries
  simpa using h

namespace Registry

def resolve (registry : Registry) (occurrence : Occurrence) : Except CompileError PlanStep :=
  match registry.get? occurrence.name with
  | none => .error (.unknownDirective occurrence.name)
  | some directive =>
    match directive.read occurrence.raw with
    | .ok reading => .ok ⟨occurrence.name, occurrence.raw, reading⟩
    | .error fault => .error (.malformedArgument occurrence.name occurrence.raw fault)

end Registry

abbrev Plan := List PlanStep

namespace Plan

def names (plan : Plan) : List String := plan.map PlanStep.name

def hasDirective (plan : Plan) (name : String) : Bool := plan.names.contains name

def firstArgument (plan : Plan) (name : String) : UInt64 :=
  firstInteger (plan.map fun step => (step.name, step.reading.tokens)) name

end Plan

def Registry.plan (registry : Registry) (params : Parameters) : Except CompileError Plan := do
  let steps ← params.occurrences.mapM registry.resolve
  return forceLast (fun step => step.name == "force") steps

end ParamQuery
