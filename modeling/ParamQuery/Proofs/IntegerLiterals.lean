import Mathlib.Algebra.Ring.Int.Defs
import Mathlib.Data.List.TakeWhile
import ParamQuery.Proofs.CanonicalArguments
import ParamQuery.Proofs.Comparability
import ParamQuery.Proofs.PlanReading
import ParamQuery.Proofs.ValueOrder

/-!
# Comparison with integer literals

A filter takes integer literals of any size. One that fits 64 bits stays an integer and is compared
exactly. Any other becomes a float, and an integer of a row is rounded beside it, so the two are
told apart unless they are rounded to the same end of the 64 bit range. A literal that is rounded
to no finite float stays text, and no integer is comparable with it.
-/

namespace ParamQuery

namespace Numeral

/-- The text is an optional sign and one or more digits, and denotes the integer. -/
inductive Denotes : List Char → Int → Prop where
  | plain {digits : List Char} {n : Nat} (h : digitsValue? digits = some n) : Denotes digits n
  | plus {digits : List Char} {n : Nat} (h : digitsValue? digits = some n) :
      Denotes ('+' :: digits) n
  | minus {digits : List Char} {n : Nat} (h : digitsValue? digits = some n) :
      Denotes ('-' :: digits) (-n)

variable {text : List Char} {i : Int} {n : Nat}

/-- Without a minus, the bound is the largest number of 64 bits. -/
lemma int64?_of_value? (hminus : text.head? ≠ some '-') (h : value? text = some n) :
    int64? text =
      if -2 ^ 63 ≤ (n : Int) ∧ (n : Int) < 2 ^ 63 then some (Int64.ofInt n) else none := by
  have hread : int64? text =
      (natural largestInt64 text).toOption.map fun n => Int64.ofInt n := by
    unfold int64?
    split
    · exact absurd rfl hminus
    · rfl
  rw [hread, toOption_natural, h, Option.filter_some, largestInt64]
  by_cases hn : n ≤ 0x7FFFFFFFFFFFFFFF
  · rw [if_pos (decide_eq_true hn), if_pos (by omega)]
    rfl
  · rw [if_neg (by simpa using hn), if_neg (by omega)]
    rfl

/-- The numbers that fit 64 bits are read as integers. -/
lemma int64?_of_denotes (h : Denotes text i) :
    int64? text = if -2 ^ 63 ≤ i ∧ i < 2 ^ 63 then some (Int64.ofInt i) else none := by
  cases h with
  | plain h =>
    refine int64?_of_value? (fun hminus => ?_) (value?_of_digitsValue? h)
    obtain ⟨rest, rfl⟩ := List.head?_eq_some_iff.mp hminus
    exact absurd (head_isDigit h) (by decide)
  | plus h => exact int64?_of_value? (by simp) h
  | @minus digits n h =>
    rw [int64?, toOption_unsigned, h, Option.filter_some, largestInt64]
    by_cases hn : n ≤ 0x7FFFFFFFFFFFFFFF + 1
    · rw [if_pos (decide_eq_true hn), if_pos (by omega)]
      rfl
    · rw [if_neg (by simpa using hn), if_neg (by omega)]
      rfl

lemma mem_of_denotes (h : Denotes text i) : ∀ c ∈ text, c = '+' ∨ c = '-' ∨ c.isDigit = true := by
  have hdigits : ∀ {digits : List Char} {n : Nat}, digitsValue? digits = some n →
      ∀ c ∈ digits, c = '+' ∨ c = '-' ∨ c.isDigit = true := fun h c hc =>
    .inr (.inr (List.all_eq_true.mp (digitsValue?_eq_some_iff.mp h).2.1 c hc))
  cases h with
  | plain h => exact hdigits h
  | plus h => exact List.forall_mem_cons.mpr ⟨.inl rfl, hdigits h⟩
  | minus h => exact List.forall_mem_cons.mpr ⟨.inr (.inl rfl), hdigits h⟩

lemma any_isDigit_of_denotes (h : Denotes text i) : text.any Char.isDigit = true := by
  have hdigits : ∀ {digits : List Char} {n : Nat}, digitsValue? digits = some n →
      digits.any Char.isDigit = true := by
    intro digits n h
    obtain ⟨c, rest, rfl⟩ := List.exists_cons_of_ne_nil (digitsValue?_eq_some_iff.mp h).1
    rw [List.any_cons, head_isDigit h, Bool.true_or]
  cases h with
  | plain h => exact hdigits h
  | plus h | minus h => rw [List.any_cons, hdigits h, Bool.or_true]

end Numeral

namespace Decimal

/-- A decimal without a fraction and without an exponent. -/
lemma magnitude?_digits {digits : List Char} {n : Nat} (negative : Bool)
    (h : Numeral.digitsValue? digits = some n) :
    magnitude? negative digits = some ⟨negative, n, 0⟩ := by
  obtain ⟨hne, hall, rfl⟩ := Numeral.digitsValue?_eq_some_iff.mp h
  have hwhole : digits.takeWhile Char.isDigit = digits :=
    List.takeWhile_eq_self_iff.mpr (List.all_eq_true.mp hall)
  have hrest : digits.dropWhile Char.isDigit = [] :=
    List.dropWhile_eq_nil_iff.mpr (List.all_eq_true.mp hall)
  rw [magnitude?, hwhole, hrest]
  dsimp only
  rw [if_neg (by simp [hne]), List.append_nil]
  rfl

/-- The sign of zero is lost in the integer. -/
lemma ofText?_of_denotes {text : List Char} {i : Int} (h : Numeral.Denotes text i) (hi : i ≠ 0) :
    ofText? text = some ⟨i < 0, i.natAbs, 0⟩ := by
  cases h with
  | @plain _ n h =>
    have hsigned : signed text = (false, text) := by
      unfold signed
      split
      · exact absurd (Numeral.head_isDigit h) (by decide)
      · exact absurd (Numeral.head_isDigit h) (by decide)
      · rfl
    rw [ofText?, hsigned]
    dsimp only
    rw [magnitude?_digits false h]
    simp
  | @plus digits n h =>
    rw [ofText?, signed]
    dsimp only
    rw [magnitude?_digits false h]
    simp
  | @minus digits n h =>
    rw [ofText?, signed]
    dsimp only
    rw [magnitude?_digits true h]
    have hpos : 0 < n := by omega
    simp [hpos]

end Decimal

namespace Binary64

/-- The least natural number that is rounded to no finite one: half a step above the largest. -/
def overflow : Nat := twoTo 1024 - twoTo 970

lemma isFinite_round_iff {negative : Bool} {n d : Nat} :
    (round negative n d).isFinite = true ↔ nearestUnits n d < twoTo magnitudeBits := by
  simp only [round]
  split
  · next h => simp [isFinite, h]
  · next h => simp [isFinite, h]

lemma nearestUnits_lt_iff {n : Nat} :
    nearestUnits (n * twoTo unitExponent) 1 < twoTo magnitudeBits ↔ n < overflow := by
  have hlast : nearestUnits ((overflow - 1) * twoTo unitExponent) 1 < twoTo magnitudeBits := by
    decide +kernel
  have hfirst : twoTo magnitudeBits ≤ nearestUnits (overflow * twoTo unitExponent) 1 := by
    decide +kernel
  have hmono : ∀ m n : Nat, m ≤ n → nearestUnits (m * twoTo unitExponent) 1 ≤
      nearestUnits (n * twoTo unitExponent) 1 := fun m n hmn =>
    nearestUnits_mono Nat.one_pos (Nat.mul_le_mul_right _ hmn)
  constructor
  · intro h
    apply Nat.lt_of_not_le
    intro hn
    exact absurd h (Nat.not_lt.mpr (Nat.le_trans hfirst (hmono _ _ hn)))
  · intro h
    exact Nat.lt_of_le_of_lt (hmono _ _ (Nat.le_sub_one_of_lt h)) hlast

lemma isFinite_ofInt_iff {i : Int} : (ofInt i).isFinite = true ↔ i.natAbs < overflow := by
  rw [ofInt, isFinite_round_iff, nearestUnits_lt_iff]

lemma tenTo_le_of_lt_digitCount {n k : Nat} (hk : 0 < k) (h : k < digitCount n) :
    tenTo k ≤ n := by
  apply Nat.le_of_not_lt
  intro hn
  exact absurd ((Nat.length_toDigits_le_iff (by decide) hk).mpr hn) (Nat.not_le.mpr h)

/-- A number with more digits than any finite one is past the largest. -/
lemma overflow_le_of_digitCount {n : Nat} (h : 310 < digitCount n) : overflow ≤ n := by
  have hpower : overflow ≤ tenTo 310 := by decide +kernel
  exact Nat.le_trans hpower (tenTo_le_of_lt_digitCount (by decide) h)

/-- A decimal that is an integer is rounded as the integer is. -/
lemma ofDecimal_integer {i : Int} (hi : i ≠ 0) :
    ofDecimal ⟨i < 0, i.natAbs, 0⟩ = ofInt i := by
  have hne : i.natAbs ≠ 0 := Int.natAbs_ne_zero.mpr hi
  rw [ofDecimal]
  dsimp only
  rw [if_neg (by simp [hne])]
  split
  · next h =>
    have hlarge : overflow ≤ i.natAbs := overflow_le_of_digitCount (by omega)
    have hround : ¬nearestUnits (i.natAbs * twoTo unitExponent) 1 < twoTo magnitudeBits :=
      mt nearestUnits_lt_iff.mp (Nat.not_lt.mpr hlarge)
    rw [ofInt, round, dif_neg hround]
  · rw [ofInt]
    simp [tenTo]

/-- Integers that are rounded to the same end of the 64 bit range, the first of them inside and the
second one outside of it. -/
def RoundTogether (i n : Int) : Prop :=
  (2 ^ 63 - 512 ≤ i ∧ 2 ^ 63 ≤ n ∧ n ≤ 2 ^ 63 + 1024) ∨
    (i ≤ -2 ^ 63 + 512 ∧ n < -2 ^ 63 ∧ -2 ^ 63 - 1024 ≤ n)

instance (i n : Int) : Decidable (RoundTogether i n) := inferInstanceAs (Decidable (_ ∨ _))

lemma signed_not (negative : Bool) (units : Nat) :
    signed (!negative) units = -signed negative units := by
  cases negative
  · rfl
  · exact (Int.neg_neg _).symm

lemma roundedLevel_neg (i : Int) : roundedLevel (-i) = -roundedLevel i := by
  rcases eq_or_ne i 0 with rfl | hi
  · decide +kernel
  · have hsign : decide (-i < 0) = !decide (i < 0) := by
      rw [← decide_not]
      exact decide_eq_decide.mpr (by omega)
    rw [roundedLevel, roundedLevel, Int.natAbs_neg, hsign, signed_not]

/-- Above the range, the end of it is at a half step below, and a number that is rounded to it is
at most a half step above. -/
lemma compare_roundedLevel_above {i n : Int} (hi : i ≤ 2 ^ 63) (hn : 2 ^ 63 ≤ n) :
    Ord.compare (roundedLevel i) (roundedLevel n) =
      if 2 ^ 63 - 512 ≤ i ∧ n ≤ 2 ^ 63 + 1024 then .eq else .lt := by
  have hends : roundedLevel (2 ^ 63 - 512) = roundedLevel (2 ^ 63 + 1024) := by decide +kernel
  have hbelow : roundedLevel (2 ^ 63 - 513) < roundedLevel (2 ^ 63 - 512) := by decide +kernel
  have habove : roundedLevel (2 ^ 63 + 1024) < roundedLevel (2 ^ 63 + 1025) := by decide +kernel
  have hle := roundedLevel_mono (i := i) (j := 2 ^ 63 + 1024) (by omega)
  have hge := roundedLevel_mono (i := 2 ^ 63 - 512) (j := n) (by omega)
  by_cases hnear : 2 ^ 63 - 512 ≤ i
  · have hi' := roundedLevel_mono hnear
    by_cases hnear' : n ≤ 2 ^ 63 + 1024
    · have hn' := roundedLevel_mono hnear'
      rw [if_pos ⟨hnear, hnear'⟩, Int.compare_eq_eq]
      omega
    · have hn' := roundedLevel_mono (i := 2 ^ 63 + 1025) (j := n) (by omega)
      rw [if_neg (fun h => hnear' h.2), Int.compare_eq_lt]
      omega
  · have hi' := roundedLevel_mono (i := i) (j := 2 ^ 63 - 513) (by omega)
    rw [if_neg (fun h => hnear h.1), Int.compare_eq_lt]
    omega

lemma compare_neg (x y : Int) : Ord.compare (-x) (-y) = Ord.compare y x := by
  rcases Int.lt_trichotomy y x with h | rfl | h
  · rw [Int.compare_eq_lt.mpr h, Int.compare_eq_lt.mpr (by omega)]
  · rw [Int.compare_eq_eq.mpr rfl, Int.compare_eq_eq.mpr rfl]
  · rw [Int.compare_eq_gt.mpr h, Int.compare_eq_gt.mpr (by omega)]

lemma compare_roundedLevel {i n : Int} (hi : -2 ^ 63 ≤ i ∧ i < 2 ^ 63)
    (hn : ¬(-2 ^ 63 ≤ n ∧ n < 2 ^ 63)) :
    Ord.compare (roundedLevel i) (roundedLevel n) =
      if RoundTogether i n then .eq else Ord.compare i n := by
  by_cases habove : 2 ^ 63 ≤ n
  · have hlt : Ord.compare i n = .lt := Int.compare_eq_lt.mpr (by omega)
    have hnear : RoundTogether i n ↔ 2 ^ 63 - 512 ≤ i ∧ n ≤ 2 ^ 63 + 1024 := by
      rw [RoundTogether]
      omega
    rw [compare_roundedLevel_above (by omega) habove, hlt]
    simp only [hnear]
  -- below the range both numbers change their signs
  · have hgt : Ord.compare i n = .gt := Int.compare_eq_gt.mpr (by omega)
    have hnear : RoundTogether i n ↔ 2 ^ 63 - 512 ≤ -i ∧ -n ≤ 2 ^ 63 + 1024 := by
      rw [RoundTogether]
      omega
    have hmirror := compare_roundedLevel_above (i := -i) (n := -n) (by omega) (by omega)
    rw [roundedLevel_neg, roundedLevel_neg, compare_neg] at hmirror
    rw [← Int.compare_swap, hmirror, hgt]
    simp only [hnear]
    split <;> rfl

end Binary64

namespace CompareOp

/-- What an operator says of two integers; the pattern operators say nothing of them. -/
def Relates : CompareOp → Int → Int → Prop
  | .eq, i, n => i = n
  | .ne, i, n => i ≠ n
  | .lt, i, n => i < n
  | .lte, i, n => i ≤ n
  | .gt, i, n => i > n
  | .gte, i, n => i ≥ n
  | .like, _, _ | .notLike, _, _ => False

instance (op : CompareOp) (i n : Int) : Decidable (op.Relates i n) :=
  match op with
  | .eq => inferInstanceAs (Decidable (i = n))
  | .ne => inferInstanceAs (Decidable (i ≠ n))
  | .lt => inferInstanceAs (Decidable (i < n))
  | .lte => inferInstanceAs (Decidable (i ≤ n))
  | .gt => inferInstanceAs (Decidable (i > n))
  | .gte => inferInstanceAs (Decidable (i ≥ n))
  | .like | .notLike => inferInstanceAs (Decidable False)

variable {op : CompareOp} {a b : Value}

lemma holds_iff_relates (hlike : op ≠ .like) (hnotLike : op ≠ .notLike) {i n : Int}
    (h : a.compare b = some (Ord.compare i n)) : op.holds a b = true ↔ op.Relates i n := by
  cases op with
  | eq => simp [holds, Relates, h]
  | ne => simp [holds, Relates, h]
  | lt => simp [holds, Relates, h, Int.compare_eq_lt]
  | lte => simp [holds, Relates, h, Int.compare_eq_gt]
  | gt => simp [holds, Relates, h, Int.compare_eq_gt]
  | gte => simp [holds, Relates, h, Int.compare_eq_lt]
  | like => exact absurd rfl hlike
  | notLike => exact absurd rfl hnotLike

end CompareOp

namespace Value

open Binary64

variable {literal : String} {n : Int}

/-- A numeral is none of the words that stand for a value. -/
lemma infer_eq_inferNumber? (h : Numeral.Denotes literal.toList n) :
    infer literal = (inferNumber? literal.toList).getD (.text literal) := by
  have hword : ∀ c ∈ literal.toList, c ≠ 'n' ∧ c ≠ 't' ∧ c ≠ 'f' := by
    intro c hc
    rcases Numeral.mem_of_denotes h c hc with rfl | rfl | hdigit
    · decide
    · decide
    · refine ⟨?_, ?_, ?_⟩ <;> rintro rfl <;> exact absurd hdigit (by decide)
  unfold infer
  split
  · exact absurd rfl (hword 'n' (by decide)).1
  · exact absurd rfl (hword 't' (by decide)).2.1
  · exact absurd rfl (hword 'f' (by decide)).2.2
  · rfl

/-- A literal is an integer or a float if it can be one, and else text. -/
lemma infer_of_denotes (h : Numeral.Denotes literal.toList n) :
    infer literal =
      if -2 ^ 63 ≤ n ∧ n < 2 ^ 63 then .int (Int64.ofInt n)
      else if n.natAbs < overflow then .float (ofInt n)
      else .text literal := by
  rw [infer_eq_inferNumber? h, inferNumber?, Numeral.int64?_of_denotes h]
  by_cases hfits : -2 ^ 63 ≤ n ∧ n < 2 ^ 63
  · rw [if_pos hfits, if_pos hfits]
    rfl
  · have hne : n ≠ 0 := by omega
    rw [if_neg hfits, if_neg hfits, Binary64.ofText?, Decimal.ofText?_of_denotes h hne]
    dsimp only
    rw [ofDecimal_integer hne, Option.filter_some, Numeral.any_isDigit_of_denotes h, Bool.and_true]
    by_cases hfinite : n.natAbs < overflow
    · rw [if_pos (isFinite_ofInt_iff.mpr hfinite), if_pos hfinite]
      rfl
    · rw [if_neg (mt isFinite_ofInt_iff.mp hfinite), if_neg hfinite]
      rfl

/-- An integer is comparable with a literal unless that stays text, and the comparison is the one of
the integers unless they are rounded together. -/
lemma compare_int_infer (i : Int64) (h : Numeral.Denotes literal.toList n) :
    (int i).compare (infer literal) =
      if n.natAbs < overflow then
        some (if RoundTogether i.toInt n then .eq else Ord.compare i.toInt n)
      else none := by
  have hi : -2 ^ 63 ≤ i.toInt ∧ i.toInt < 2 ^ 63 := ⟨i.le_toInt, i.toInt_lt⟩
  have hrange : 2 ^ 63 < overflow := by decide +kernel
  rw [infer_of_denotes h]
  by_cases hfits : -2 ^ 63 ≤ n ∧ n < 2 ^ 63
  · have hsmall : n.natAbs < overflow := by omega
    have hapart : ¬RoundTogether i.toInt n := by
      rw [RoundTogether]
      omega
    rw [if_pos hfits, if_pos hsmall, if_neg hapart, compare,
      Int64.toInt_ofInt_of_le hfits.1 hfits.2]
  · rw [if_neg hfits]
    by_cases hfinite : n.natAbs < overflow
    · rw [if_pos hfinite, if_pos hfinite, ← compare_roundedLevel hi hfits, compare]
      exact compare_of_level? (level?_ofInt _) (level?_ofInt _)
    · rw [if_neg hfinite, if_neg hfinite]
      rfl

end Value

section Filters

open Binary64

variable {name token literal field : String} {op : CompareOp} {n : Int}

lemma operator_of_ofToken? (h : CompareOp.ofToken? token = some op) :
    Argument.operator token.toList = .ok op ∧ ':' ∉ token.toList := by
  unfold CompareOp.ofToken? at h
  split at h <;> cases h <;> exact ⟨rfl, by decide⟩

/-- Signs and digits are not blank, so a literal is not trimmed. -/
lemma trimmed_of_denotes (h : Numeral.Denotes literal.toList n) :
    Argument.trimmed literal.toList = literal := by
  have hblank : ∀ c ∈ literal.toList, Text.isBlank c = false := by
    intro c hc
    rcases Numeral.mem_of_denotes h c hc with rfl | rfl | hdigit
    · decide
    · decide
    · exact Argument.isBlank_of_isDigit hdigit
  rw [Argument.trimmed, Text.trim_eq_self_of_ends (fun c hc => hblank c (List.mem_of_mem_head? hc))
    fun c hc => hblank c (List.mem_of_getLast? hc), String.ofList_toList]

/-- A comparison with an integer literal is read into the test of its field. -/
lemma resolve_where (hname : ':' ∉ name.toList)
    (hfield : Argument.fieldName name.toList = .ok field)
    (hop : CompareOp.ofToken? token = some op) (hn : Numeral.Denotes literal.toList n) :
    let raw := name ++ ":" ++ token ++ ":" ++ literal
    Registry.builtin.resolve ⟨"where", raw⟩ = .ok ⟨"where", raw,
      ⟨[field, op.token, literal],
        .issuing [.filter .and (Argument.comparisonOf field op literal)]⟩⟩ := by
  intro raw
  obtain ⟨hread, htoken⟩ := operator_of_ofToken? hop
  have htext : raw.toList = name.toList ++ ':' :: (token.toList ++ ':' :: literal.toList) := by
    simp [raw]
  have hfilter : Argument.comparison raw.toList = .ok
      ⟨Argument.comparisonOf field op literal, [field, op.token, literal]⟩ := by
    refine Argument.comparison_eq_ok_iff.mpr
      ⟨_, _, _, field, op, htext, hname, htoken, hfield, hread, ?_⟩
    rw [trimmed_of_denotes hn]
  refine Registry.resolve_eq_ok_iff.mpr ⟨rfl, .filter .and .comparison, rfl, ?_⟩
  exact ((DirectiveKind.filter .and .comparison).read_directive raw).trans
    (bind_eq_ok_iff.mpr ⟨_, hfilter, rfl⟩)

lemma infer_ne_null (hn : Numeral.Denotes literal.toList n) : Value.infer literal ≠ .null := by
  rw [Value.infer_of_denotes hn]
  split
  · simp
  · split <;> simp

/-- The test looks at the field with the literal that was inferred. -/
lemma eval_comparisonOf (hlike : op ≠ .like) (hnotLike : op ≠ .notLike)
    (hn : Numeral.Denotes literal.toList n) {row : Row} {i : Int64}
    (hrow : row.get? field = some (.int i)) :
    (Argument.comparisonOf field op literal).eval row =
      op.holds (.int i) (Value.infer literal) := by
  have htest : Argument.comparisonOf field op literal =
      .compare field op (Value.infer literal) := by
    unfold Argument.comparisonOf
    split
    · exact absurd rfl hlike
    · exact absurd rfl hnotLike
    · next hnull => exact absurd hnull (infer_ne_null hn)
    · next hnull => exact absurd hnull (infer_ne_null hn)
    · rfl
  rw [htest, Predicate.eval, hrow, Option.any_some]

/-- A `where` filter with an integer literal of any size is read into one test of its field. On a
row that holds an integer the test is the comparison of the two integers, with two exceptions: both
count as equal if they are rounded to the same end of the 64 bit range, inside and outside of it,
and no comparison holds if the literal is rounded to no finite float. -/
theorem where_integer_literal
    (hname : ':' ∉ name.toList) (hfield : Argument.fieldName name.toList = .ok field)
    (hop : CompareOp.ofToken? token = some op) (hlike : op ≠ .like) (hnotLike : op ≠ .notLike)
    (hn : Numeral.Denotes literal.toList n) :
    let raw := name ++ ":" ++ token ++ ":" ++ literal
    ∃ predicate,
      Registry.builtin.resolve ⟨"where", raw⟩ = .ok ⟨"where", raw,
        ⟨[field, op.token, literal], .issuing [.filter .and predicate]⟩⟩ ∧
      ∀ (row : Row) (i : Int64), row.get? field = some (.int i) →
        (n.natAbs < overflow → (predicate.eval row = true ↔
          if RoundTogether i.toInt n then op.Relates n n else op.Relates i.toInt n)) ∧
        (overflow ≤ n.natAbs → predicate.eval row = false) := by
  intro raw
  refine ⟨_, resolve_where hname hfield hop hn, fun row i hrow => ?_⟩
  rw [eval_comparisonOf hlike hnotLike hn hrow]
  have hcompare := Value.compare_int_infer i hn
  constructor
  · intro hfinite
    rw [if_pos hfinite] at hcompare
    by_cases htogether : RoundTogether i.toInt n
    · rw [if_pos htogether] at hcompare ⊢
      apply CompareOp.holds_iff_relates hlike hnotLike
      rw [hcompare, Int.compare_eq_eq.mpr rfl]
    · rw [if_neg htogether] at hcompare ⊢
      exact CompareOp.holds_iff_relates hlike hnotLike hcompare
  · intro hlarge
    rw [if_neg (Nat.not_lt.mpr hlarge)] at hcompare
    exact CompareOp.holds_eq_false hlike hnotLike hcompare

/-- The largest integer of 64 bits is below the first one that is not rounded to the same float. -/
theorem where_integer_literal_past_half_step :
    let row : Row := [("k", .int 9223372036854775807)]
    ∃ predicate,
      Registry.builtin.resolve ⟨"where", " k:lt:+9223372036854776833"⟩ = .ok
        ⟨"where", " k:lt:+9223372036854776833",
          ⟨["k", "lt", "+9223372036854776833"], .issuing [.filter .and predicate]⟩⟩ ∧
      predicate.eval row = true := by
  intro row
  have hn : Numeral.Denotes "+9223372036854776833".toList 9223372036854776833 := .plus rfl
  have hname : ':' ∉ " k".toList := by decide
  have hop : CompareOp.ofToken? "lt" = some .lt := rfl
  obtain ⟨predicate, hresolve, heval⟩ :=
    where_integer_literal hname rfl hop (by decide) (by decide) hn
  refine ⟨predicate, hresolve, ((heval row 9223372036854775807 rfl).1 (by decide +kernel)).mpr ?_⟩
  rw [if_neg (by decide)]
  decide

/-- The largest integer of 64 bits passes for equal to the next one. -/
theorem where_integer_literal_not_exact :
    let row : Row := [("k", .int 9223372036854775807)]
    ∃ predicate,
      Registry.builtin.resolve ⟨"where", "k:eq:9223372036854775808"⟩ = .ok
        ⟨"where", "k:eq:9223372036854775808",
          ⟨["k", "eq", "9223372036854775808"], .issuing [.filter .and predicate]⟩⟩ ∧
      row.get? "k" = some (.int 9223372036854775807) ∧
      Numeral.Denotes "9223372036854775808".toList 9223372036854775808 ∧
      ¬(predicate.eval row = true ↔
        CompareOp.eq.Relates (9223372036854775807 : Int64).toInt 9223372036854775808) := by
  intro row
  have hn : Numeral.Denotes "9223372036854775808".toList 9223372036854775808 := .plain rfl
  have hname : ':' ∉ "k".toList := by decide
  have hop : CompareOp.ofToken? "eq" = some .eq := rfl
  refine ⟨_, resolve_where hname rfl hop hn, rfl, hn, ?_⟩
  decide +kernel

end Filters

end ParamQuery
