import ParamQuery.Argument.Basic

/-!
# Filter arguments

The four forms of filter: `field:operator:value`, `field:(value,value,...)`, `field:low:high`
and `field`. A filter is read into its predicate and its tokens, the parts in plain text.
-/

namespace ParamQuery

/-- The shape of a filter's argument; a negated form asks for the opposite. -/
inductive FilterForm where
  | comparison
  | membership (negated : Bool)
  | range (negated : Bool)
  | nullness (negated : Bool)
  deriving DecidableEq, Repr

structure Filter where
  predicate : Predicate
  tokens : List String

namespace Argument

def operator (text : List Char) : Except ArgumentError CompareOp :=
  match CompareOp.ofToken? (trimmed text) with
  | some op => .ok op
  | none => .error (.unknownOperator (trimmed text))

/--
A comparison with an operand in plain text. A pattern stays text even if it looks like a
number, and equality with null is the test for null.
-/
def comparisonOf (field : String) (op : CompareOp) (operand : String) : Predicate :=
  match op, Value.infer operand with
  | .like, _ | .notLike, _ => .compare field op (.text operand)
  | .eq, .null => .isNull field false
  | .ne, .null => .isNull field true
  | _, value => .compare field op value

def comparison (text : List Char) : Except ArgumentError Filter := do
  let (field, op, operand) ← threeParts "field:operator:value" text
  let field ← fieldName field
  let op ← operator op
  return ⟨comparisonOf field op (trimmed operand), [field, op.token, trimmed operand]⟩

/-- A list in parentheses or without any; one parenthesis alone is refused. -/
def unwrap? (list : List Char) : Option (List Char) :=
  match list.head? == some '(', list.getLast? == some ')' with
  | true, true => some (list.drop 1).dropLast
  | false, false => some list
  | _, _ => none

def membership (negated : Bool) (text : List Char) : Except ArgumentError Filter := do
  let expected := "field:(value,value,...)"
  let (field, values) ← (Text.cut ':' text).elim (throw (.shape expected)) pure
  let field ← fieldName field
  let values ← (unwrap? (Text.trim values)).elim (throw (.shape expected)) pure
  let items ← list expected values
  return ⟨.member field (items.map Value.infer) negated, field :: items⟩

def bound (text : List Char) : Except ArgumentError Value :=
  let value := Value.infer (trimmed text)
  if value.isNumeric then .ok value else .error (.nonNumericBound (trimmed text))

def range (negated : Bool) (text : List Char) : Except ArgumentError Filter := do
  let (field, low, high) ← threeParts "field:low:high" text
  let field ← fieldName field
  let lowValue ← bound low
  let highValue ← bound high
  return ⟨.between field lowValue highValue negated, [field, trimmed low, trimmed high]⟩

def nullness (negated : Bool) (text : List Char) : Except ArgumentError Filter := do
  let field ← fieldName text
  return ⟨.isNull field negated, [field]⟩

end Argument

def FilterForm.read (form : FilterForm) (text : List Char) : Except ArgumentError Filter :=
  match form with
  | .comparison => Argument.comparison text
  | .membership negated => Argument.membership negated text
  | .range negated => Argument.range negated text
  | .nullness negated => Argument.nullness negated text

end ParamQuery
