import ParamQuery.Json.Basic
import ParamQuery.Value.Basic

/-!
# Values in JSON

Null, booleans, strings and numbers are values. An integer within 64 bits is kept, any other
number becomes the nearest float, by a bounded count of its digits. A number beyond the finite
floats is refused.
-/

namespace ParamQuery

namespace JsonNumber

def exponent10 (n : JsonNumber) : Int :=
  match n.exponent with
  | none => 0
  | some (negative, digits) =>
    if negative then -Decimal.natOfDigits digits else Decimal.natOfDigits digits

/-- The digits that are looked at; no number halfway between two floats has more. -/
def countedDigits : Nat := 768

/-- The digits of the fraction up to the last that is not zero. -/
def trimmedFraction (n : JsonNumber) : List Char :=
  ((n.fraction.getD []).reverse.dropWhile (· == '0')).reverse

/--
The number with its counted digits. Digits after them, zeros as well, stand for a rest above
zero and are kept as a one.
-/
def decimal (n : JsonNumber) : Decimal :=
  let fraction := n.trimmedFraction
  let digits := (n.whole ++ fraction).dropWhile (· == '0')
  let exponent := n.exponent10 - fraction.length
  if digits.length ≤ countedDigits then
    ⟨n.negative, Decimal.natOfDigits digits, exponent⟩
  else
    ⟨n.negative, 10 * Decimal.natOfDigits (digits.take countedDigits) + 1,
      exponent + (digits.length - (countedDigits + 1) : Nat)⟩

/-- The nearest float, unless the number lies beyond them. -/
def float? (n : JsonNumber) : Option Binary64 :=
  (some (Binary64.ofDecimal n.decimal)).filter Binary64.isFinite

/-- An integer that fits 64 bits with a sign; minus zero does not. -/
def integer? (n : JsonNumber) : Option Int64 :=
  if n.fraction.isSome || n.exponent.isSome then none
  else
    let size := Decimal.natOfDigits n.whole
    if n.negative then
      if size ≠ 0 ∧ size ≤ Numeral.largestInt64 + 1 then some (Int64.ofInt (-size)) else none
    else if size ≤ Numeral.largestInt64 then some (Int64.ofInt size) else none

def value? (n : JsonNumber) : Option Value :=
  match n.integer? with
  | some i => some (.int i)
  | none => n.float?.map .float

end JsonNumber

namespace Value

def ofJson? : Json → Option Value
  | .null => some .null
  | .bool b => some (.bool b)
  | .number n => n.value?
  | .string units => (Json.textOf? units).map .text
  | .array _ | .object _ => none

def ofJsonText? (text : String) : Option Value := (Json.ofText? text).bind ofJson?

end Value

end ParamQuery
