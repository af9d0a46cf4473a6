import ParamQuery.Text.Numeral
import ParamQuery.Text.Split
import ParamQuery.Call

/-!
# Directive arguments

The parts from which the arguments of directives are read: field names, lists of names, sort
keys, counts and scopes. Each reader says what it found or why the text does not fit, and
every part is trimmed before it is judged.
-/

namespace ParamQuery

/-- Why an argument does not fit its directive. -/
inductive ArgumentError where
  | shape (expected : String)
  | emptyField
  | unknownOperator (token : String)
  | notAnInteger (text : String)
  | outOfRange (text : String) (maximum : Nat)
  | nonNumericBound (text : String)
  | unknownScope (text : String)
  deriving DecidableEq, Repr

def ArgumentError.message : ArgumentError → String
  | .shape expected => s!"expected {expected}"
  | .emptyField => "field name is empty"
  | .unknownOperator token => s!"unknown comparison operator '{token}'"
  | .notAnInteger text => s!"'{text}' is not a non-negative integer"
  | .outOfRange text maximum => s!"'{text}' exceeds the maximum of {maximum}"
  | .nonNumericBound text => s!"range bound '{text}' is not numeric"
  | .unknownScope text => s!"unknown soft-delete scope '{text}'"

namespace Argument

def trimmed (text : List Char) : String := String.ofList (Text.trim text)

def fieldName (text : List Char) : Except ArgumentError String :=
  let name := trimmed text
  if name = "" then .error .emptyField else .ok name

/-- A comma-separated list with at least one item that is not blank. -/
def list (expected : String) (text : List Char) : Except ArgumentError (List String) :=
  match Text.items text with
  | [] => .error (.shape expected)
  | found => .ok (found.map String.ofList)

def threeParts (expected : String) (text : List Char) :
    Except ArgumentError (List Char × List Char × List Char) :=
  match Text.cut ':' text with
  | none => .error (.shape expected)
  | some (first, rest) =>
    match Text.cut ':' rest with
    | none => .error (.shape expected)
    | some (second, third) => .ok (first, second, third)

/-- A field, descending after `-` and ascending after an optional `+`. -/
def sortKey (item : String) : Except ArgumentError SortKey :=
  match item.toList with
  | '-' :: field => (fieldName field).map (⟨·, .desc⟩)
  | '+' :: field => (fieldName field).map (⟨·, .asc⟩)
  | field => (fieldName field).map (⟨·, .asc⟩)

/-- A count of rows. -/
def count (text : List Char) : Except ArgumentError UInt32 :=
  match Numeral.uint32 (Text.trim text) with
  | .ok n => .ok n
  | .error .malformed => .error (.notAnInteger (trimmed text))
  | .error .tooLarge => .error (.outOfRange (trimmed text) Numeral.largestUInt32)

def scope (text : List Char) : Except ArgumentError Scope :=
  let name := trimmed text
  if name = "" then .error (.shape "one of with_trashed, only_trashed, without_trashed")
  else match Scope.ofName? name with
    | some scope => .ok scope
    | none => .error (.unknownScope name)

theorem name_of_scope {text : List Char} {found : Scope} (h : scope text = .ok found) :
    found.name = trimmed text := by
  rw [scope] at h
  split at h
  · cases h
  · cases hname : Scope.ofName? (trimmed text) with
    | none => simp [hname] at h
    | some named =>
      simp only [hname, Except.ok.injEq] at h
      subst h
      exact Scope.name_of_ofName? hname

end Argument

end ParamQuery
