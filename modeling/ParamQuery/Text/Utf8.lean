/-!
# UTF-8

Decoding of arbitrary bytes. Well-formed sequences give their characters; every maximal part
that cannot be continued gives one replacement character. The decoder takes one byte at a time
and keeps, between bytes, the character that it has begun.
-/

namespace ParamQuery.Utf8

/-- A character begun: the bytes owed, the range of the next one and the bits so far. -/
structure Begun where
  owed : Nat
  least : Nat
  greatest : Nat
  bits : Nat
  deriving DecidableEq, Repr

def replacement : Char := '\uFFFD'

/-- A byte between characters: the characters it completes and the character it begins. -/
def lead (b : Nat) : List Char × Option Begun :=
  if b < 0x80 then ([Char.ofNat b], none)
  else if b < 0xC2 then ([replacement], none)
  else if b < 0xE0 then ([], some ⟨1, 0x80, 0xBF, b - 0xC0⟩)
  else if b < 0xF0 then
    ([], some ⟨2, if b = 0xE0 then 0xA0 else 0x80, if b = 0xED then 0x9F else 0xBF, b - 0xE0⟩)
  else if b < 0xF5 then
    ([], some ⟨3, if b = 0xF0 then 0x90 else 0x80, if b = 0xF4 then 0x8F else 0xBF, b - 0xF0⟩)
  else ([replacement], none)

/-- A byte that does not continue the character begun starts over. -/
def step (begun : Option Begun) (b : Nat) : List Char × Option Begun :=
  match begun with
  | none => lead b
  | some p =>
    if p.least ≤ b ∧ b ≤ p.greatest then
      let bits := 64 * p.bits + (b - 0x80)
      if p.owed ≤ 1 then ([Char.ofNat bits], none)
      else ([], some ⟨p.owed - 1, 0x80, 0xBF, bits⟩)
    else (replacement :: (lead b).1, (lead b).2)

def decodeFrom (begun : Option Begun) : List UInt8 → List Char
  | [] => if begun.isSome then [replacement] else []
  | b :: rest =>
    let (characters, next) := step begun b.toNat
    characters ++ decodeFrom next rest

def decode (bytes : List UInt8) : List Char := decodeFrom none bytes

end ParamQuery.Utf8
