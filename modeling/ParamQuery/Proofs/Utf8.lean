import ParamQuery.Text.Utf8
import Mathlib.Tactic.Lemma

/-!
# Decoding encoded characters

The bytes of a character take the decoder from rest to rest and give just that character, so
the encoding of a text decodes to the text. There is one lemma for each number of bytes; in the
longer ones the first byte narrows the range of the second, which keeps out the surrogates and
the numbers that are no code points.
-/

namespace ParamQuery.Utf8

lemma toNat_ofNat_of_lt {n : Nat} (h : n < 256) : (UInt8.ofNat n).toNat = n := by
  rw [UInt8.toNat_ofNat']
  exact Nat.mod_eq_of_lt h

/-- A byte after the first that is not the last of its character. -/
lemma step_of_owed {owed least greatest bits b : Nat} (hleast : least ≤ b)
    (hgreatest : b ≤ greatest) :
    step (some ⟨owed + 2, least, greatest, bits⟩) b =
      ([], some ⟨owed + 1, 0x80, 0xBF, 64 * bits + (b - 0x80)⟩) := by
  simp only [step, if_pos (And.intro hleast hgreatest)]
  rw [if_neg (by omega)]
  rfl

lemma step_of_last {least greatest bits b : Nat} (hleast : least ≤ b) (hgreatest : b ≤ greatest) :
    step (some ⟨1, least, greatest, bits⟩) b = ([Char.ofNat (64 * bits + (b - 0x80))], none) := by
  simp only [step, if_pos (And.intro hleast hgreatest)]
  rfl

lemma decodeFrom_ofNat_cons {n : Nat} (h : n < 256) (begun : Option Begun) (rest : List UInt8) :
    decodeFrom begun (UInt8.ofNat n :: rest) =
      (step begun n).1 ++ decodeFrom (step begun n).2 rest := by
  rw [decodeFrom, toNat_ofNat_of_lt h]

variable {v : Nat} (rest : List UInt8)

lemma decodeFrom_one_byte (h : v ≤ 0x7f) :
    decodeFrom none (UInt8.ofNat v :: rest) = Char.ofNat v :: decodeFrom none rest := by
  rw [decodeFrom_ofNat_cons (by omega)]
  simp only [step, lead, if_pos (show v < 0x80 by omega)]
  rfl

lemma decodeFrom_two_bytes (hleast : 0x7f < v) (hgreatest : v ≤ 0x7ff) :
    decodeFrom none (UInt8.ofNat (v / 64 % 0x20 + 0xc0) :: UInt8.ofNat (v % 0x40 + 0x80) :: rest) =
      Char.ofNat v :: decodeFrom none rest := by
  have hlead : step none (v / 64 % 0x20 + 0xc0) =
      ([], some ⟨1, 0x80, 0xBF, v / 64 % 0x20 + 0xc0 - 0xC0⟩) := by
    simp only [step, lead]
    rw [if_neg (by omega), if_neg (by omega), if_pos (by omega)]
  have hbits : 64 * (v / 64 % 0x20 + 0xc0 - 0xC0) + (v % 0x40 + 0x80 - 0x80) = v := by omega
  rw [decodeFrom_ofNat_cons (by omega), hlead, decodeFrom_ofNat_cons (by omega),
    step_of_last (by omega) (by omega), hbits]
  rfl

lemma decodeFrom_three_bytes (hleast : 0x7ff < v) (hgreatest : v ≤ 0xffff)
    (hscalar : v < 0xD800 ∨ 0xDFFF < v) :
    decodeFrom none (UInt8.ofNat (v / 4096 % 0x10 + 0xe0) ::
        UInt8.ofNat (v / 64 % 0x40 + 0x80) :: UInt8.ofNat (v % 0x40 + 0x80) :: rest) =
      Char.ofNat v :: decodeFrom none rest := by
  have hlead : step none (v / 4096 % 0x10 + 0xe0) =
      ([], some ⟨2, if v / 4096 % 0x10 + 0xe0 = 0xE0 then 0xA0 else 0x80,
        if v / 4096 % 0x10 + 0xe0 = 0xED then 0x9F else 0xBF,
        v / 4096 % 0x10 + 0xe0 - 0xE0⟩) := by
    simp only [step, lead]
    rw [if_neg (by omega), if_neg (by omega), if_neg (by omega), if_pos (by omega)]
  have hsecond : step (step none (v / 4096 % 0x10 + 0xe0)).2 (v / 64 % 0x40 + 0x80) =
      ([], some ⟨1, 0x80, 0xBF, 64 * (v / 4096 % 0x10 + 0xe0 - 0xE0) +
        (v / 64 % 0x40 + 0x80 - 0x80)⟩) := by
    rw [hlead]
    exact step_of_owed (by split <;> omega) (by split <;> omega)
  have hbits : 64 * (64 * (v / 4096 % 0x10 + 0xe0 - 0xE0) + (v / 64 % 0x40 + 0x80 - 0x80)) +
      (v % 0x40 + 0x80 - 0x80) = v := by omega
  rw [decodeFrom_ofNat_cons (by omega), decodeFrom_ofNat_cons (by omega), hsecond,
    decodeFrom_ofNat_cons (by omega), step_of_last (by omega) (by omega), hbits, hlead]
  rfl

lemma decodeFrom_four_bytes (hleast : 0xffff < v) (hgreatest : v < 0x110000) :
    decodeFrom none (UInt8.ofNat (v / 262144 % 0x08 + 0xf0) ::
        UInt8.ofNat (v / 4096 % 0x40 + 0x80) :: UInt8.ofNat (v / 64 % 0x40 + 0x80) ::
        UInt8.ofNat (v % 0x40 + 0x80) :: rest) =
      Char.ofNat v :: decodeFrom none rest := by
  have hlead : step none (v / 262144 % 0x08 + 0xf0) =
      ([], some ⟨3, if v / 262144 % 0x08 + 0xf0 = 0xF0 then 0x90 else 0x80,
        if v / 262144 % 0x08 + 0xf0 = 0xF4 then 0x8F else 0xBF,
        v / 262144 % 0x08 + 0xf0 - 0xF0⟩) := by
    simp only [step, lead]
    rw [if_neg (by omega), if_neg (by omega), if_neg (by omega), if_neg (by omega),
      if_pos (by omega)]
  have hsecond : step (step none (v / 262144 % 0x08 + 0xf0)).2 (v / 4096 % 0x40 + 0x80) =
      ([], some ⟨2, 0x80, 0xBF, 64 * (v / 262144 % 0x08 + 0xf0 - 0xF0) +
        (v / 4096 % 0x40 + 0x80 - 0x80)⟩) := by
    rw [hlead]
    exact step_of_owed (by split <;> omega) (by split <;> omega)
  have hbits : 64 * (64 * (64 * (v / 262144 % 0x08 + 0xf0 - 0xF0) +
      (v / 4096 % 0x40 + 0x80 - 0x80)) + (v / 64 % 0x40 + 0x80 - 0x80)) +
      (v % 0x40 + 0x80 - 0x80) = v := by omega
  rw [decodeFrom_ofNat_cons (by omega), decodeFrom_ofNat_cons (by omega), hsecond,
    decodeFrom_ofNat_cons (by omega), step_of_owed (by omega) (by omega),
    decodeFrom_ofNat_cons (by omega), step_of_last (by omega) (by omega), hbits, hlead]
  rfl

/-- The bytes of a character are read as the character, whatever follows them. -/
lemma decodeFrom_utf8EncodeChar (c : Char) :
    decodeFrom none (String.utf8EncodeChar c ++ rest) = c :: decodeFrom none rest := by
  have hscalar : c.val.toNat < 0xD800 ∨ (0xDFFF < c.val.toNat ∧ c.val.toNat < 0x110000) := c.valid
  have hc : Char.ofNat c.val.toNat = c := Char.ofNat_toNat c
  rw [String.utf8EncodeChar]
  split
  · next h1 => rw [List.singleton_append, decodeFrom_one_byte rest h1, hc]
  · next h1 =>
    split
    · next h2 => exact (decodeFrom_two_bytes rest (by omega) h2).trans (by rw [hc])
    · next h2 =>
      split
      · next h3 => exact (decodeFrom_three_bytes rest (by omega) h3 (by omega)).trans (by rw [hc])
      · next h3 => exact (decodeFrom_four_bytes rest (by omega) (by omega)).trans (by rw [hc])

theorem decode_encode (text : List Char) :
    decode (text.flatMap String.utf8EncodeChar) = text := by
  rw [decode]
  induction text with
  | nil => rfl
  | cons c rest ih => rw [List.flatMap_cons, decodeFrom_utf8EncodeChar, ih]

end ParamQuery.Utf8
