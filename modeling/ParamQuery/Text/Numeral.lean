/-!
# Decimal numerals

A numeral is an optional `+` and one or more ASCII digits; a signed one may have a `-` instead.
Digits are read from the left against an upper bound, so that a text is refused for its first
fault: a character that is no digit, or the digit with which the value passes the bound.
-/

namespace ParamQuery.Numeral

/-- Why a text is not a numeral within its bound. -/
inductive Fault where
  | malformed
  | tooLarge
  deriving DecidableEq, Repr

def digitValue (c : Char) : Nat := c.toNat - '0'.toNat

def hexValue? (c : Char) : Option Nat :=
  if c.isDigit then some (digitValue c)
  else if 'a' ≤ c ∧ c ≤ 'f' then some (c.toNat - 'a'.toNat + 10)
  else if 'A' ≤ c ∧ c ≤ 'F' then some (c.toNat - 'A'.toNat + 10)
  else none

def digits (bound : Nat) (read : Nat) : List Char → Except Fault Nat
  | [] => .ok read
  | c :: rest =>
    if c.isDigit then
      let next := 10 * read + digitValue c
      if next ≤ bound then digits bound next rest else .error .tooLarge
    else .error .malformed

def unsigned (bound : Nat) (text : List Char) : Except Fault Nat :=
  if text.isEmpty then .error .malformed else digits bound 0 text

def natural (bound : Nat) : List Char → Except Fault Nat
  | '+' :: text => unsigned bound text
  | text => unsigned bound text

def largestUInt32 : Nat := 0xFFFFFFFF
def largestUInt64 : Nat := 0xFFFFFFFFFFFFFFFF
def largestInt64 : Nat := 0x7FFFFFFFFFFFFFFF

def uint32 (text : List Char) : Except Fault UInt32 :=
  (natural largestUInt32 text).map UInt32.ofNat

def uint64? (text : List Char) : Option UInt64 :=
  (natural largestUInt64 text).toOption.map UInt64.ofNat

/-- A signed numeral; the negative range reaches one further than the positive one. -/
def int64? : List Char → Option Int64
  | '-' :: text =>
    (unsigned (largestInt64 + 1) text).toOption.map fun n => Int64.ofInt (-(n : Int))
  | text => (natural largestInt64 text).toOption.map fun n => Int64.ofInt n

end ParamQuery.Numeral
