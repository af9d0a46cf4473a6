import ParamQuery.Row

/-!
# Predicates

Filter trees over the columns of a row. The leaves compare one column with constants. Apart from
the tests for null they are false on a column that is missing or null, and all but a negated
membership are false on a cell that is comparable with none of the constants. `join` is the step by
which a request builds its tree: a left spine, one leaf at a time.
-/

namespace ParamQuery

inductive CompareOp where
  | eq | ne | lt | lte | gt | gte | like | notLike
  deriving DecidableEq, Repr

namespace CompareOp

/-- The spellings of an operator; `ne` has two. -/
def ofToken? : String → Option CompareOp
  | "eq" => some .eq
  | "ne" | "noteq" => some .ne
  | "lt" => some .lt
  | "lte" => some .lte
  | "gt" => some .gt
  | "gte" => some .gte
  | "lk" => some .like
  | "nlk" => some .notLike
  | _ => none

def token : CompareOp → String
  | .eq => "eq"
  | .ne => "ne"
  | .lt => "lt"
  | .lte => "lte"
  | .gt => "gt"
  | .gte => "gte"
  | .like => "lk"
  | .notLike => "nlk"

def holds (op : CompareOp) (actual expected : Value) : Bool :=
  match op with
  | .eq => actual.compare expected == some .eq
  | .ne => (actual.compare expected).any (· != .eq)
  | .lt => (actual.compare expected).any (· == .lt)
  | .lte => (actual.compare expected).any (· != .gt)
  | .gt => (actual.compare expected).any (· == .gt)
  | .gte => (actual.compare expected).any (· != .lt)
  | .like => expected.text?.bind actual.like == some true
  | .notLike => expected.text?.bind actual.like == some false

end CompareOp

/-- How a filter joins the filters before it. -/
inductive Conjunction where
  | and | or
  deriving DecidableEq, Repr

inductive Predicate where
  | all (children : List Predicate)
  | any (children : List Predicate)
  | compare (field : String) (op : CompareOp) (value : Value)
  | member (field : String) (values : List Value) (negated : Bool)
  | between (field : String) (low high : Value) (negated : Bool)
  | isNull (field : String) (negated : Bool)

namespace Predicate

/-- The first filter is the root whatever its conjunction. -/
def join (existing : Option Predicate) (conjunction : Conjunction) (next : Predicate) :
    Predicate :=
  match existing, conjunction with
  | none, _ => next
  | some p, .and => .all [p, next]
  | some p, .or => .any [p, next]

/-- Membership in a list of values, or its negation; null is in neither. -/
def memberHolds (values : List Value) (negated : Bool) (actual : Value) : Bool :=
  !actual.isNull && values.any actual.equal != negated

/-- Membership in a closed range, or its negation; both bounds have to be comparable. -/
def betweenHolds (low high : Value) (negated : Bool) (actual : Value) : Bool :=
  match actual.compare low, actual.compare high with
  | some lo, some hi => (lo != .lt && hi != .gt) != negated
  | _, _ => false

mutual

def eval (row : Row) : Predicate → Bool
  | .all children => evalAll row children
  | .any children => evalAny row children
  | .compare field op value => (row.get? field).any fun actual => op.holds actual value
  | .member field values negated => (row.get? field).any (memberHolds values negated)
  | .between field low high negated => (row.get? field).any (betweenHolds low high negated)
  | .isNull field negated => (row.present? field).isNone != negated

def evalAll (row : Row) : List Predicate → Bool
  | [] => true
  | p :: rest => eval row p && evalAll row rest

def evalAny (row : Row) : List Predicate → Bool
  | [] => false
  | p :: rest => eval row p || evalAny row rest

end

@[simp] theorem eval_all (row : Row) (children : List Predicate) :
    eval row (.all children) = children.all (eval row) := by
  rw [eval]
  induction children with
  | nil => simp [evalAll]
  | cons p rest ih => simp [evalAll, ih]

@[simp] theorem eval_any (row : Row) (children : List Predicate) :
    eval row (.any children) = children.any (eval row) := by
  rw [eval]
  induction children with
  | nil => simp [evalAny]
  | cons p rest ih => simp [evalAny, ih]

@[simp] theorem eval_compare (row : Row) (column : String) (op : CompareOp) (operand : Value) :
    eval row (.compare column op operand) =
      (row.get? column).any fun cell => op.holds cell operand := by
  rw [eval]

@[simp] theorem eval_member (row : Row) (column : String) (values : List Value) (negated : Bool) :
    eval row (.member column values negated) =
      (row.get? column).any (memberHolds values negated) := by
  rw [eval]

@[simp] theorem eval_between (row : Row) (column : String) (low high : Value) (negated : Bool) :
    eval row (.between column low high negated) =
      (row.get? column).any (betweenHolds low high negated) := by
  rw [eval]

theorem eval_join_and (row : Row) (p next : Predicate) :
    eval row (join (some p) .and next) = (eval row p && eval row next) := by
  simp [join]

theorem eval_join_or (row : Row) (p next : Predicate) :
    eval row (join (some p) .or next) = (eval row p || eval row next) := by
  simp [join]

end Predicate

end ParamQuery
