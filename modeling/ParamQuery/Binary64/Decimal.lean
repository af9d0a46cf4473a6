import ParamQuery.Binary64.Basic
import ParamQuery.Text.Numeral

/-!
# Binary64 numbers written in decimal

A decimal is a sign, digits with at most one point and at least one digit, and an optional
exponent. It is read to the nearest number, whatever its length. The words `inf`, `infinity`
and `nan` are read in any case.
-/

namespace ParamQuery

/-- A decimal in its written parts: `(-1) ^ negative * significand * 10 ^ exponent`. -/
structure Decimal where
  negative : Bool
  significand : Nat
  exponent : Int
  deriving DecidableEq, Repr

namespace Decimal

def natOfDigits (digits : List Char) : Nat :=
  digits.foldl (fun n c => 10 * n + Numeral.digitValue c) 0

def signed (text : List Char) : Bool × List Char :=
  match text with
  | '-' :: rest => (true, rest)
  | '+' :: rest => (false, rest)
  | rest => (false, rest)

/-- The exponent part up to the end of the text. -/
def exponent? : List Char → Option Int
  | [] => some 0
  | mark :: rest =>
    let (negative, digits) := signed rest
    if (mark = 'e' ∨ mark = 'E') ∧ digits ≠ [] ∧ digits.all Char.isDigit then
      some (if negative then -natOfDigits digits else natOfDigits digits)
    else none

def magnitude? (negative : Bool) (text : List Char) : Option Decimal :=
  let whole := text.takeWhile Char.isDigit
  let (fraction, rest) := match text.dropWhile Char.isDigit with
    | '.' :: rest => (rest.takeWhile Char.isDigit, rest.dropWhile Char.isDigit)
    | rest => ([], rest)
  if whole.isEmpty && fraction.isEmpty then none
  else (exponent? rest).map fun exponent =>
    ⟨negative, natOfDigits (whole ++ fraction), exponent - fraction.length⟩

def ofText? (text : List Char) : Option Decimal :=
  let (negative, rest) := signed text
  magnitude? negative rest

end Decimal

namespace Binary64

def digitCount (n : Nat) : Nat := (Nat.toDigits 10 n).length

/--
The nearest number to a decimal. Beyond the powers of ten that bound the finite numbers the
answer is settled by the position of the leading digit.
-/
def ofDecimal (d : Decimal) : Binary64 :=
  let leading := digitCount d.significand + d.exponent
  if d.significand = 0 || leading < -330 then zero d.negative
  else if 310 < leading then .infinite d.negative
  else
    let units := d.significand * twoTo unitExponent
    round d.negative (units * tenTo d.exponent.toNat) (tenTo (-d.exponent).toNat)

def special? (negative : Bool) (text : List Char) : Option Binary64 :=
  match String.ofList (text.map Char.toLower) with
  | "inf" | "infinity" => some (.infinite negative)
  | "nan" => some .nan
  | _ => none

def ofText? (text : List Char) : Option Binary64 :=
  match Decimal.ofText? text with
  | some d => some (ofDecimal d)
  | none =>
    let (negative, rest) := Decimal.signed text
    special? negative rest

end Binary64

end ParamQuery
