import ParamQuery.Proofs.IntegerLiterals
import ParamQuery.Proofs.PredicateShape

/-!
# Inferred values

A text is inferred to be null, a truth value, an integer or a float only where it denotes one, and
stays as it is otherwise. The integers are read from just the numerals of the numbers that fit 64
bits. A value that is no float is written as a text from which it is inferred again.
-/

namespace ParamQuery

namespace Numeral

variable {text : List Char} {i : Int} {n : Nat}

lemma denotes_of_value? (h : value? text = some n) : Denotes text n := by
  unfold value? at h
  split at h
  · exact .plus h
  · exact .plain h

lemma exists_denotes_of_int64? {i : Int64} (h : int64? text = some i) : ∃ n, Denotes text n := by
  unfold int64? at h
  split at h
  · next digits =>
    cases hvalue : digitsValue? digits with
    | none =>
      rw [toOption_unsigned, hvalue] at h
      cases h
    | some n => exact ⟨-n, .minus hvalue⟩
  · cases hvalue : value? text with
    | none =>
      rw [toOption_natural, hvalue] at h
      cases h
    | some n => exact ⟨n, denotes_of_value? hvalue⟩

/-- An integer is read from the numerals of its number. -/
theorem int64?_eq_some_iff {i : Int64} : int64? text = some i ↔ Denotes text i.toInt := by
  constructor
  · intro h
    obtain ⟨n, hn⟩ := exists_denotes_of_int64? h
    rw [int64?_of_denotes hn] at h
    split at h
    · next hfits =>
      cases h
      rwa [Int64.toInt_ofInt_of_le hfits.1 hfits.2]
    · cases h
  · intro h
    rw [int64?_of_denotes h, if_pos ⟨i.le_toInt, i.toInt_lt⟩, Int64.ofInt_toInt]

/-- An integer is written as one of its numerals, with a minus if it is negative. -/
lemma denotes_toString (i : Int) : Denotes (toString i).toList i := by
  have hdigits : ∀ n : Nat, digitsValue? (Nat.toDigits 10 n) = some n := fun n => by
    refine digitsValue?_eq_some_iff.mpr ⟨Nat.toDigits_ne_nil, List.all_eq_true.mpr fun c hc => ?_,
      Nat.ofDigitChars_ten_toDigits⟩
    exact Nat.isDigit_of_mem_toDigits (by decide) (by decide) hc
  cases i with
  | ofNat n =>
    have htext : (toString (Int.ofNat n)).toList = Nat.toDigits 10 n := Nat.toList_repr
    rw [htext]
    exact .plain (hdigits n)
  | negSucc n =>
    have htext : (toString (Int.negSucc n)).toList = '-' :: Nat.toDigits 10 (n + 1) := by
      have hrepr : toString (Int.negSucc n) = "-" ++ Nat.repr (n + 1) := rfl
      rw [hrepr, String.toList_append, Nat.toList_repr]
      rfl
    rw [htext]
    exact .minus (hdigits (n + 1))

end Numeral

namespace Value

/-- The values that may be inferred from a text. -/
inductive Inferred (raw : String) : Value → Prop
  | null (h : raw = "null") : Inferred raw .null
  | bool (b : Bool) (h : raw = toText (.bool b)) : Inferred raw (.bool b)
  | int {i : Int64} (h : Numeral.Denotes raw.toList i.toInt) : Inferred raw (.int i)
  | float {x : Binary64} (h : x.isFinite = true) : Inferred raw (.float x)
  | text : Inferred raw (.text raw)

variable {raw : String}

lemma inferred_of_inferNumber? {value : Value} (h : inferNumber? raw.toList = some value) :
    Inferred raw value := by
  have hfinite := isFiniteNumber_of_inferNumber? h
  rw [inferNumber?] at h
  split at h
  · next i hi =>
    cases h
    exact .int (Numeral.int64?_eq_some_iff.mp hi)
  · obtain ⟨x, -, rfl⟩ := Option.map_eq_some_iff.mp h
    exact .float hfinite

theorem inferred_infer (raw : String) : Inferred raw (infer raw) := by
  unfold infer
  split
  · exact .null rfl
  · exact .bool true rfl
  · exact .bool false rfl
  · cases hnumber : inferNumber? raw.toList with
    | none => exact .text
    | some value => exact inferred_of_inferNumber? hnumber

lemma infer_eq_null_iff : infer raw = .null ↔ raw = "null" := by
  constructor
  · intro h
    cases (h ▸ inferred_infer raw : Inferred raw .null) with
    | null hraw => exact hraw
  · rintro rfl
    rfl

theorem infer_eq_int_iff {i : Int64} :
    infer raw = .int i ↔ Numeral.Denotes raw.toList i.toInt := by
  constructor
  · intro h
    cases (h ▸ inferred_infer raw : Inferred raw (.int i)) with
    | int hi => exact hi
  · intro h
    rw [infer_of_denotes h, if_pos ⟨i.le_toInt, i.toInt_lt⟩, Int64.ofInt_toInt]

/-- An integer that is written out is inferred again. -/
lemma infer_toText_int (i : Int64) : infer (toText (.int i)) = .int i :=
  infer_eq_int_iff.mpr (Numeral.denotes_toString i.toInt)

/-- Writing a value that was inferred loses nothing unless it is a float. -/
lemma infer_toText_of_inferred {value : Value} (h : Inferred raw value) (hvalue : infer raw = value)
    (hfloat : ∀ x, value ≠ .float x) : infer value.toText = value := by
  cases h with
  | null => rfl
  | bool b => cases b <;> rfl
  | @int i => exact infer_toText_int i
  | @float x => exact absurd rfl (hfloat x)
  | text => exact hvalue

/-- The numerals of the numbers that fit 64 bits, and no other texts, are inferred to be integers. A
float that is inferred is finite, and text stays as it is. An integer is inferred from its digits,
and any value that was inferred and is no float is inferred again from what it is written as. -/
theorem infer_integers_and_display :
    (∀ (raw : String) (n : Int), (∃ i : Int64, i.toInt = n ∧ infer raw = .int i) ↔
      Numeral.Denotes raw.toList n ∧ -2 ^ 63 ≤ n ∧ n ≤ 2 ^ 63 - 1) ∧
    (∀ (raw : String) (x : Binary64), infer raw = .float x → x.isFinite = true) ∧
    (∀ raw text : String, infer raw = .text text → text = raw) ∧
    (∀ i : Int64, infer (toText (.int i)) = .int i) ∧
    ∀ raw : String, (∀ x, infer raw ≠ .float x) → infer (infer raw).toText = infer raw := by
  refine ⟨fun raw n => ?_, fun raw x h => ?_, fun raw text h => ?_, infer_toText_int,
    fun raw h => infer_toText_of_inferred (inferred_infer raw) rfl h⟩
  · constructor
    · rintro ⟨i, rfl, h⟩
      exact ⟨infer_eq_int_iff.mp h, i.le_toInt, Int.le_sub_one_of_lt i.toInt_lt⟩
    · rintro ⟨hn, hlow, hhigh⟩
      have hword : (Int64.ofInt n).toInt = n := Int64.toInt_ofInt_of_le hlow (by omega)
      exact ⟨.ofInt n, hword, infer_eq_int_iff.mpr (hword.symm ▸ hn)⟩
  · cases (h ▸ inferred_infer raw : Inferred raw (.float x)) with
    | float hx => exact hx
  · cases (h ▸ inferred_infer raw : Inferred raw (.text text)) with
    | text => rfl

/-- The least integer with zeros in front, the first one that does not fit, the integer zero with a
minus, and a word for infinity. -/
theorem infer_integers_and_display_extremes :
    (∃ i : Int64, i.toInt = -2 ^ 63 ∧ infer "-009223372036854775808" = .int i) ∧
      (¬∃ i : Int64, i.toInt = 2 ^ 63 ∧ infer "+9223372036854775808" = .int i) ∧
      infer (toText (.int Int64.minValue)) = .int Int64.minValue ∧
      infer "-0" = .int 0 ∧ infer (infer "-0").toText = infer "-0" ∧
      infer "-inf" = .text "-inf" ∧ infer (infer "-inf").toText = infer "-inf" := by
  obtain ⟨hint, -, -, hwritten, hback⟩ := infer_integers_and_display
  have hzero : infer "-0" = .int 0 := by decide +kernel
  have hinfinity : infer "-inf" = .text "-inf" := by decide +kernel
  refine ⟨(hint _ _).mpr ⟨.minus rfl, by decide, by decide⟩, fun h => ?_, hwritten _, hzero,
    hback _ fun x => ?_, hinfinity, hback _ fun x => ?_⟩
  · exact absurd ((hint _ _).mp h).2.2 (by decide)
  · rw [hzero]
    exact Value.noConfusion
  · rw [hinfinity]
    exact Value.noConfusion

end Value

end ParamQuery
