import ParamQuery.Proofs.Utf8
import Mathlib.Data.String.Basic

/-!
# The order of bytes

Texts are ordered by their code points, and the bytes that encode them are in the same order. The
first byte of a character grows with the number of its bytes; characters with as many bytes are
written in base 64, the highest digit first.
-/

namespace ParamQuery.Utf8

/-- The bytes that encode a text. -/
def bytes (text : String) : List UInt8 := text.toUTF8.data.toList

/-- A number as a first byte, raised by `lead`, and `count` bytes with six bits each. -/
def spread (lead : Nat) : Nat → Nat → List UInt8
  | 0, v => [UInt8.ofNat (v + lead)]
  | count + 1, v => spread lead count (v / 64) ++ [UInt8.ofNat (v % 64 + 0x80)]

lemma ofNat_cons_lt {m n : Nat} (h : m < n) (hn : n < 256) (x y : List UInt8) :
    UInt8.ofNat m :: x < UInt8.ofNat n :: y := by
  rw [List.cons_lt_cons_iff, UInt8.lt_iff_toNat_lt, toNat_ofNat_of_lt (Nat.lt_trans h hn),
    toNat_ofNat_of_lt hn]
  exact .inl h

lemma exists_spread_eq_cons (lead count v : Nat) :
    ∃ rest, spread lead count v = UInt8.ofNat (v / 64 ^ count + lead) :: rest := by
  induction count generalizing v with
  | zero => exact ⟨[], by rw [spread, Nat.pow_zero, Nat.div_one]⟩
  | succ count ih =>
    obtain ⟨rest, hrest⟩ := ih (v / 64)
    refine ⟨rest ++ [UInt8.ofNat (v % 64 + 0x80)], ?_⟩
    rw [spread, hrest, Nat.div_div_eq_div_mul, Nat.pow_succ', List.cons_append]

lemma spread_append_lt_of_first {lead lead' count count' v w : Nat}
    (h : v / 64 ^ count + lead < w / 64 ^ count' + lead') (hw : w / 64 ^ count' + lead' < 256)
    (x y : List UInt8) : spread lead count v ++ x < spread lead' count' w ++ y := by
  obtain ⟨rest, hrest⟩ := exists_spread_eq_cons lead count v
  obtain ⟨rest', hrest'⟩ := exists_spread_eq_cons lead' count' w
  rw [hrest, hrest', List.cons_append, List.cons_append]
  exact ofNat_cons_lt h hw _ _

lemma spread_append_lt {lead count v w : Nat} (h : v < w) (hw : w / 64 ^ count + lead < 256)
    (x y : List UInt8) : spread lead count v ++ x < spread lead count w ++ y := by
  induction count generalizing v w x y with
  | zero =>
    rw [Nat.pow_zero, Nat.div_one] at hw
    exact ofNat_cons_lt (by omega) hw x y
  | succ count ih =>
    rw [spread, spread, List.append_assoc, List.append_assoc]
    rcases Nat.lt_or_eq_of_le (Nat.div_le_div_right (c := 64) (Nat.le_of_lt h)) with hhigh | hhigh
    · rw [Nat.pow_succ', ← Nat.div_div_eq_div_mul] at hw
      exact ih hhigh hw _ _
    · rw [hhigh]
      exact List.append_left_lt (ofNat_cons_lt (by omega) (by omega) x y)

/-- How a character is spread: over one byte to four. -/
lemma exists_spread (c : Char) :
    ∃ lead count, String.utf8EncodeChar c = spread lead count c.val.toNat ∧
      ((c.val.toNat ≤ 0x7f ∧ lead = 0 ∧ count = 0) ∨
        (0x7f < c.val.toNat ∧ c.val.toNat ≤ 0x7ff ∧ lead = 0xc0 ∧ count = 1) ∨
        (0x7ff < c.val.toNat ∧ c.val.toNat ≤ 0xffff ∧ lead = 0xe0 ∧ count = 2) ∨
        (0xffff < c.val.toNat ∧ c.val.toNat < 0x110000 ∧ lead = 0xf0 ∧ count = 3)) := by
  have hscalar : c.val.toNat < 0xD800 ∨ (0xDFFF < c.val.toNat ∧ c.val.toNat < 0x110000) := c.valid
  rw [String.utf8EncodeChar]
  generalize c.val.toNat = v at *
  by_cases h1 : v ≤ 0x7f
  · rw [if_pos h1]
    exact ⟨0, 0, rfl, .inl ⟨h1, rfl, rfl⟩⟩
  · rw [if_neg h1]
    by_cases h2 : v ≤ 0x7ff
    · rw [if_pos h2, show v / 64 % 0x20 = v / 64 by omega]
      exact ⟨0xc0, 1, rfl, .inr (.inl ⟨by omega, h2, rfl, rfl⟩)⟩
    · rw [if_neg h2]
      by_cases h3 : v ≤ 0xffff
      · rw [if_pos h3, show v / 4096 % 0x10 = v / 64 / 64 by omega]
        exact ⟨0xe0, 2, rfl, .inr (.inr (.inl ⟨by omega, h3, rfl, rfl⟩))⟩
      · rw [if_neg h3, show v / 262144 % 0x08 = v / 64 / 64 / 64 by omega,
          show v / 4096 % 0x40 = v / 64 / 64 % 64 by omega]
        exact ⟨0xf0, 3, rfl, .inr (.inr (.inr ⟨by omega, by omega, rfl, rfl⟩))⟩

lemma utf8EncodeChar_append_lt {c d : Char} (h : c < d) (x y : List UInt8) :
    String.utf8EncodeChar c ++ x < String.utf8EncodeChar d ++ y := by
  have hlt : c.val.toNat < d.val.toNat := h
  obtain ⟨lead, count, hc, hcsize⟩ := exists_spread c
  obtain ⟨lead', count', hd, hdsize⟩ := exists_spread d
  have hfirst : d.val.toNat / 64 ^ count' + lead' < 256 := by
    rcases hdsize with ⟨_, rfl, rfl⟩ | ⟨_, _, rfl, rfl⟩ | ⟨_, _, rfl, rfl⟩ | ⟨_, _, rfl, rfl⟩ <;>
      omega
  have hsizes : (lead = lead' ∧ count = count') ∨
      c.val.toNat / 64 ^ count + lead < d.val.toNat / 64 ^ count' + lead' := by
    rcases hcsize with ⟨_, rfl, rfl⟩ | ⟨_, _, rfl, rfl⟩ | ⟨_, _, rfl, rfl⟩ | ⟨_, _, rfl, rfl⟩ <;>
      rcases hdsize with ⟨_, rfl, rfl⟩ | ⟨_, _, rfl, rfl⟩ | ⟨_, _, rfl, rfl⟩ | ⟨_, _, rfl, rfl⟩ <;>
        omega
  rw [hc, hd]
  rcases hsizes with ⟨rfl, rfl⟩ | hless
  · exact spread_append_lt hlt hfirst x y
  · exact spread_append_lt_of_first hless hfirst x y

lemma encode_lt_of_lt {s t : List Char} (h : s < t) :
    s.flatMap String.utf8EncodeChar < t.flatMap String.utf8EncodeChar := by
  induction s generalizing t with
  | nil =>
    cases t with
    | nil => exact absurd h (List.lt_irrefl [])
    | cons d t =>
      obtain ⟨b, rest, hcons⟩ := List.exists_cons_of_ne_nil (@String.utf8EncodeChar_ne_nil d)
      rw [List.flatMap_nil, List.flatMap_cons, hcons, List.cons_append]
      exact List.nil_lt_cons _ _
  | cons c s ih =>
    cases t with
    | nil => exact absurd h (List.not_lt_nil _)
    | cons d t =>
      rw [List.flatMap_cons, List.flatMap_cons]
      rcases List.cons_lt_cons_iff.mp h with hlt | ⟨rfl, hrest⟩
      · exact utf8EncodeChar_append_lt hlt _ _
      · exact List.append_left_lt (ih hrest)

lemma bytes_eq (text : String) : bytes text = text.toList.flatMap String.utf8EncodeChar := by
  rw [bytes, String.toUTF8, ← String.utf8Encode_toList, List.utf8Encode,
    List.toList_data_toByteArray]

/-- The smaller of two texts has the smaller bytes. -/
theorem bytes_lt_iff {s t : String} : bytes s < bytes t ↔ s < t := by
  have hmono : ∀ {s t : String}, s < t → bytes s < bytes t := by
    intro s t h
    rw [bytes_eq, bytes_eq]
    exact encode_lt_of_lt (String.lt_iff_toList_lt.mp h)
  refine ⟨fun h => ?_, hmono⟩
  rcases lt_trichotomy s t with hlt | rfl | hgt
  · exact hlt
  · exact absurd h (List.lt_irrefl _)
  · exact absurd (hmono hgt) (List.lt_asymm h)

end ParamQuery.Utf8
