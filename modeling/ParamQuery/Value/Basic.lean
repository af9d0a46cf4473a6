import ParamQuery.Binary64.Decimal
import ParamQuery.Binary64.Shortest
import ParamQuery.Text.Pattern

/-!
# Values

The scalars that rows hold and filters compare with. A value is inferred from untyped request
text, which stays text unless it is one of three words or a number. Values of different
families are not comparable, except the two kinds of number; null is comparable with nothing.
-/

namespace ParamQuery

inductive Value where
  | null
  | bool (b : Bool)
  | int (i : Int64)
  | float (x : Binary64)
  | text (s : String)
  deriving DecidableEq

namespace Value

/-- A numeral is an integer if it fits one, and otherwise a float if it is finite. The words that
stand for floats have no digit and are no numerals. -/
def inferNumber? (raw : List Char) : Option Value :=
  match Numeral.int64? raw with
  | some i => some (.int i)
  | none =>
    ((Binary64.ofText? raw).filter fun x => x.isFinite && raw.any Char.isDigit).map .float

def infer (raw : String) : Value :=
  match raw with
  | "null" => .null
  | "true" => .bool true
  | "false" => .bool false
  | _ => (inferNumber? raw.toList).getD (.text raw)

def isNull : Value → Bool
  | .null => true
  | _ => false

def isNumeric : Value → Bool
  | .int _ | .float _ => true
  | _ => false

def text? : Value → Option String
  | .text s => some s
  | _ => none

/-- Texts are ordered by code points; an integer beside a float is rounded to the nearest one. -/
def compare : Value → Value → Option Ordering
  | .bool a, .bool b => some (Ord.compare a b)
  | .int a, .int b => some (Ord.compare a.toInt b.toInt)
  | .float a, .float b => a.compare b
  | .int a, .float b => (Binary64.ofInt a.toInt).compare b
  | .float a, .int b => a.compare (Binary64.ofInt b.toInt)
  | .text a, .text b => some (Ord.compare a b)
  | _, _ => none

/-- Equality under `compare`, so null equals nothing. -/
def equal (a b : Value) : Bool := a.compare b == some .eq

/-- The same kind and the same content; two floats by their values. -/
def same : Value → Value → Bool
  | .float a, .float b => a.equal b
  | a, b => a == b

/-- Whether a text fits the pattern; `none` for other values. -/
def like (value : Value) (pattern : String) : Option Bool :=
  value.text?.map fun s => Pattern.like pattern.toList s.toList

def toText : Value → String
  | .null => "null"
  | .bool b => if b then "true" else "false"
  | .int i => toString i.toInt
  | .float x => x.toText
  | .text s => s

end Value

end ParamQuery
