import ParamQuery.Plan

/-!
# Problems

A problem is what a host shows of a failure: its kind, the directive at fault and a message.
-/

namespace ParamQuery

inductive ProblemKind where
  | unknownDirective | malformedArgument | unsupportedOperation | config | internal
  deriving DecidableEq, Repr

namespace ProblemKind

def name : ProblemKind → String
  | .unknownDirective => "unknown_directive"
  | .malformedArgument => "malformed_argument"
  | .unsupportedOperation => "unsupported_operation"
  | .config => "config"
  | .internal => "internal"

def ofName? : String → Option ProblemKind
  | "unknown_directive" => some .unknownDirective
  | "malformed_argument" => some .malformedArgument
  | "unsupported_operation" => some .unsupportedOperation
  | "config" => some .config
  | "internal" => some .internal
  | _ => none

def blame : ProblemKind → Blame
  | .unknownDirective | .malformedArgument | .unsupportedOperation => .clientInput
  | .config | .internal => .internal

theorem ofName?_name (kind : ProblemKind) : ofName? kind.name = some kind := by
  cases kind <;> rfl

end ProblemKind

structure Problem where
  kind : ProblemKind
  directive : Option String := none
  message : String
  deriving DecidableEq, Repr

namespace Problem

def blame (problem : Problem) : Blame := problem.kind.blame

def status (problem : Problem) : Nat := problem.blame.status

end Problem

namespace CompileError

def problemKind : CompileError → ProblemKind
  | .unknownDirective _ => .unknownDirective
  | .malformedArgument .. => .malformedArgument
  | .unsupportedOperation .. => .unsupportedOperation
  | .defaultProjection .. => .internal

def problem (fault : CompileError) : Problem :=
  ⟨fault.problemKind, fault.directive?, fault.message⟩

end CompileError

end ParamQuery
