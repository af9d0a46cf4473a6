import ParamQuery.Text.Numeral
import ParamQuery.Proofs.Traversal
import Mathlib.Data.List.TakeWhile

/-!
# What numerals denote

`value?` says which texts are numerals and which number each of them denotes, whatever its size.
A reader with a bound reads just the numerals of numbers within its bound, and the decimal digits
of a number are a numeral of it. Whether a reader finds a text too large hangs on the digits in
front alone, so a text may be too large and no numeral.
-/

namespace ParamQuery

namespace Numeral

/-- The number that one or more digits denote; `none` for any other text. -/
def digitsValue? (text : List Char) : Option Nat :=
  if text ≠ [] ∧ text.all Char.isDigit = true then some (Nat.ofDigitChars 10 text 0) else none

/-- The number that digits after an optional `+` denote; `none` for any other text. -/
def value? : List Char → Option Nat
  | '+' :: text => digitsValue? text
  | text => digitsValue? text

/-- The number that the digits in front of a text denote, 0 if there are none. -/
def leadingDigits (text : List Char) : Nat := Nat.ofDigitChars 10 (text.takeWhile Char.isDigit) 0

/-- The number that the digits in front, after an optional `+`, denote, whatever follows them. -/
def leadingValue : List Char → Nat
  | '+' :: text => leadingDigits text
  | text => leadingDigits text

lemma digitsValue?_eq_some_iff {text : List Char} {n : Nat} :
    digitsValue? text = some n ↔
      text ≠ [] ∧ text.all Char.isDigit = true ∧ Nat.ofDigitChars 10 text 0 = n := by
  rw [digitsValue?]
  split
  · next h => simp [h]
  · next h =>
    simp only [reduceCtorEq, false_iff]
    rintro ⟨hne, hall, -⟩
    exact h ⟨hne, hall⟩

lemma head_isDigit {c : Char} {rest : List Char} {n : Nat}
    (h : digitsValue? (c :: rest) = some n) : c.isDigit = true := by
  have hall := (digitsValue?_eq_some_iff.mp h).2.1
  rw [List.all_cons, Bool.and_eq_true] at hall
  exact hall.1

lemma value?_of_digitsValue? {text : List Char} {n : Nat} (h : digitsValue? text = some n) :
    value? text = some n := by
  unfold value?
  split
  · exact absurd (head_isDigit h) (by decide)
  · exact h

lemma le_ofDigitChars (text : List Char) (read : Nat) : read ≤ Nat.ofDigitChars 10 text read := by
  rw [Nat.ofDigitChars_eq_ofDigitChars_zero]
  have hpos : 0 < 10 ^ text.length := Nat.pow_pos (by decide)
  exact Nat.le_add_right_of_le (Nat.le_mul_of_pos_left read hpos)

lemma digits_cons_of_isDigit {bound read : Nat} {c : Char} {rest : List Char}
    (h : c.isDigit = true) :
    digits bound read (c :: rest) =
      if 10 * read + digitValue c ≤ bound then digits bound (10 * read + digitValue c) rest
      else .error .tooLarge :=
  if_pos h

/-- Digits are read on to the end just if the number that they complete is within the bound: the
number read so far only grows. -/
lemma digits_eq_ok_iff {bound read n : Nat} {text : List Char} (hread : read ≤ bound) :
    digits bound read text = .ok n ↔
      text.all Char.isDigit = true ∧ Nat.ofDigitChars 10 text read = n ∧ n ≤ bound := by
  induction text generalizing read with
  | nil =>
    rw [digits, Nat.ofDigitChars_nil, Except.ok.injEq]
    constructor
    · rintro rfl
      exact ⟨rfl, rfl, hread⟩
    · exact fun h => h.2.1
  | cons c rest ih =>
    have hvalue : Nat.ofDigitChars 10 (c :: rest) read =
        Nat.ofDigitChars 10 rest (10 * read + digitValue c) := Nat.ofDigitChars_cons
    rw [List.all_cons, Bool.and_eq_true, hvalue]
    by_cases hdigit : c.isDigit = true
    · rw [digits_cons_of_isDigit hdigit, and_iff_right hdigit]
      by_cases hnext : 10 * read + digitValue c ≤ bound
      · rw [if_pos hnext]
        exact ih hnext
      · rw [if_neg hnext]
        have hgrows := le_ofDigitChars rest (10 * read + digitValue c)
        simp only [reduceCtorEq, false_iff]
        rintro ⟨-, hcomplete, hbound⟩
        omega
    · simp [digits, hdigit]

lemma unsigned_eq_ok_iff {bound n : Nat} {text : List Char} :
    unsigned bound text = .ok n ↔ digitsValue? text = some n ∧ n ≤ bound := by
  rw [digitsValue?_eq_some_iff]
  cases text with
  | nil => simp [unsigned]
  | cons c rest =>
    rw [unsigned, List.isEmpty_cons, if_neg Bool.false_ne_true,
      digits_eq_ok_iff (Nat.zero_le bound), and_iff_right (List.cons_ne_nil c rest), and_assoc]

/-- A reader with a bound reads the numerals of the numbers within it. -/
theorem natural_eq_ok_iff {bound n : Nat} {text : List Char} :
    natural bound text = .ok n ↔ value? text = some n ∧ n ≤ bound := by
  unfold natural
  split
  case h_1 digits => exact unsigned_eq_ok_iff
  case h_2 hplain =>
    rw [value?]
    · exact unsigned_eq_ok_iff
    · exact hplain

/-- A numeral is all digits, so those in front make up its number. -/
lemma leadingDigits_of_digitsValue? {text : List Char} {n : Nat} (h : digitsValue? text = some n) :
    leadingDigits text = n := by
  obtain ⟨-, hall, hvalue⟩ := digitsValue?_eq_some_iff.mp h
  rw [leadingDigits, List.takeWhile_eq_self_iff.mpr (List.all_eq_true.mp hall), hvalue]

lemma leadingValue_of_value? {text : List Char} {n : Nat} (h : value? text = some n) :
    leadingValue text = n := by
  unfold value? at h
  split at h
  case h_1 digits => exact leadingDigits_of_digitsValue? h
  case h_2 hplain =>
    rw [leadingValue]
    · exact leadingDigits_of_digitsValue? h
    · exact hplain

/-- The number that the digits in front of a text denote is that of a numeral, or of the start of no
numeral. -/
lemma lt_leadingValue_iff {bound : Nat} {text : List Char} :
    bound < leadingValue text ↔
      (∃ n, value? text = some n ∧ bound < n) ∨ value? text = none ∧ bound < leadingValue text := by
  cases hvalue : value? text with
  | none => simp
  | some n => simp [leadingValue_of_value? hvalue]

/-- Reading stops at the digit with which the digits in front pass the bound, so what follows them
does not count. -/
lemma digits_eq_tooLarge_iff {bound read : Nat} {text : List Char} (hread : read ≤ bound) :
    digits bound read text = .error .tooLarge ↔
      bound < Nat.ofDigitChars 10 (text.takeWhile Char.isDigit) read := by
  induction text generalizing read with
  | nil => simpa [digits] using hread
  | cons c rest ih =>
    by_cases hdigit : c.isDigit = true
    · have hvalue : Nat.ofDigitChars 10 (c :: rest.takeWhile Char.isDigit) read =
          Nat.ofDigitChars 10 (rest.takeWhile Char.isDigit) (10 * read + digitValue c) :=
        Nat.ofDigitChars_cons
      rw [digits_cons_of_isDigit hdigit, List.takeWhile_cons_of_pos hdigit, hvalue]
      by_cases hnext : 10 * read + digitValue c ≤ bound
      · rw [if_pos hnext]
        exact ih hnext
      · have hgrows := le_ofDigitChars (rest.takeWhile Char.isDigit) (10 * read + digitValue c)
        rw [if_neg hnext]
        exact iff_of_true rfl (by omega)
    · rw [List.takeWhile_cons_of_neg hdigit, Nat.ofDigitChars_nil]
      simpa [digits, hdigit] using hread

lemma unsigned_eq_tooLarge_iff {bound : Nat} {text : List Char} :
    unsigned bound text = .error .tooLarge ↔ bound < leadingDigits text := by
  cases text with
  | nil => simp [unsigned, leadingDigits]
  | cons c rest =>
    rw [unsigned, List.isEmpty_cons, if_neg Bool.false_ne_true]
    exact digits_eq_tooLarge_iff (Nat.zero_le bound)

/-- A text counts as too large by the digits in front, whether or not it is a numeral. -/
theorem natural_eq_tooLarge_iff {bound : Nat} {text : List Char} :
    natural bound text = .error .tooLarge ↔ bound < leadingValue text := by
  unfold natural
  split
  case h_1 digits => exact unsigned_eq_tooLarge_iff
  case h_2 hplain =>
    rw [leadingValue]
    · exact unsigned_eq_tooLarge_iff
    · exact hplain

/-- What is neither read nor too large is no numeral. -/
theorem natural_eq_malformed_iff {bound : Nat} {text : List Char} :
    natural bound text = .error .malformed ↔ value? text = none ∧ leadingValue text ≤ bound := by
  constructor
  · intro h
    have hbound : leadingValue text ≤ bound := by
      rw [← Nat.not_lt, ← natural_eq_tooLarge_iff, h]
      simp
    refine ⟨Option.eq_none_iff_forall_ne_some.mpr fun n hvalue => ?_, hbound⟩
    rw [leadingValue_of_value? hvalue] at hbound
    rw [natural_eq_ok_iff.mpr ⟨hvalue, hbound⟩] at h
    cases h
  · rintro ⟨hvalue, hbound⟩
    cases hread : natural bound text with
    | ok n => simp [(natural_eq_ok_iff.mp hread).1] at hvalue
    | error fault =>
      cases fault with
      | malformed => rfl
      | tooLarge => exact absurd (natural_eq_tooLarge_iff.mp hread) (Nat.not_lt.mpr hbound)

lemma toOption_unsigned (bound : Nat) (text : List Char) :
    (unsigned bound text).toOption = (digitsValue? text).filter (· ≤ bound) := by
  ext n
  rw [toOption_eq_some_iff, unsigned_eq_ok_iff, Option.filter_eq_some_iff, decide_eq_true_eq]

lemma toOption_natural (bound : Nat) (text : List Char) :
    (natural bound text).toOption = (value? text).filter (· ≤ bound) := by
  ext n
  rw [toOption_eq_some_iff, natural_eq_ok_iff, Option.filter_eq_some_iff, decide_eq_true_eq]

lemma map_toNat_uint64? (text : List Char) :
    (uint64? text).map UInt64.toNat = (value? text).filter (· ≤ largestUInt64) := by
  rw [uint64?, Option.map_map, toOption_natural]
  cases hvalue : value? text with
  | none => rfl
  | some n =>
    rw [Option.filter_some]
    by_cases hbound : n ≤ largestUInt64
    · rw [if_pos (decide_eq_true hbound), Option.map_some, Function.comp_apply,
        UInt64.toNat_ofNat_of_lt' (Nat.lt_succ_of_le hbound)]
    · rw [if_neg (by simpa using hbound), Option.map_none]

/-- The decimal digits of a number are a numeral of it. -/
theorem value?_toDigits (n : Nat) : value? (Nat.toDigits 10 n) = some n := by
  have hdigits : ∀ c ∈ Nat.toDigits 10 n, c.isDigit = true := fun c hc =>
    Nat.isDigit_of_mem_toDigits (by decide) (by decide) hc
  apply value?_of_digitsValue?
  exact digitsValue?_eq_some_iff.mpr
    ⟨Nat.toDigits_ne_nil, List.all_eq_true.mpr hdigits, Nat.ofDigitChars_ten_toDigits⟩

end Numeral

end ParamQuery
