import Mathlib.Tactic.Lemma
import ParamQuery.Predicate

/-!
# Tests on cells that are comparable or not

A filter compares the cell of its column with one or more operands. A comparison, a membership and a
range that are not negated hold only of a cell that is comparable with an operand, and they are
comparisons put together. Negation is where they part: a negated range still asks for a cell that is
comparable with both bounds, while a negated membership asks only that no member equals the cell, so
it takes every cell that is comparable with none of them.
-/

namespace ParamQuery

namespace Row

variable {row : Row} {column : String} {operands : List Value}

/-- The row has a cell in the column, and the cell is comparable with the operand. -/
def Comparable (row : Row) (column : String) (operand : Value) : Prop :=
  ∃ cell, row.get? column = some cell ∧ (cell.compare operand).isSome = true

/-- The ways in which a row has nothing to compare with any of the operands. -/
inductive Incomparable (row : Row) (column : String) (operands : List Value) : Prop where
  | missing (h : row.get? column = none)
  | null (h : row.get? column = some .null)
  | apart {cell : Value} (h : row.get? column = some cell)
      (hapart : ∀ operand ∈ operands, cell.compare operand = none)

lemma Incomparable.not_comparable (h : row.Incomparable column operands) :
    ∀ operand ∈ operands, ¬row.Comparable column operand := by
  rintro operand hoperand ⟨cell, hcell, hsome⟩
  cases h with
  | missing hmissing => simp [hmissing] at hcell
  | null hnull =>
    obtain rfl : Value.null = cell := by simpa [hnull] using hcell
    simp [Value.compare] at hsome
  | apart hother hapart =>
    rw [hother, Option.some.injEq] at hcell
    rw [← hcell, hapart operand hoperand] at hsome
    cases hsome

end Row

namespace CompareOp

variable {op : CompareOp} {cell operand : Value}

lemma holds_eq_false (hlike : op ≠ .like) (hnotLike : op ≠ .notLike)
    (h : cell.compare operand = none) : op.holds cell operand = false := by
  cases op with
  | like => exact absurd rfl hlike
  | notLike => exact absurd rfl hnotLike
  | _ => simp [holds, h]

lemma isSome_compare_of_holds (hlike : op ≠ .like) (hnotLike : op ≠ .notLike)
    (h : op.holds cell operand = true) : (cell.compare operand).isSome = true := by
  rw [Option.isSome_iff_ne_none]
  intro hnone
  rw [holds_eq_false hlike hnotLike hnone] at h
  cases h

end CompareOp

namespace Predicate

open CompareOp (holds)

/-! ### Membership and ranges by comparisons -/

variable {values : List Value} {low high cell : Value}

/-- Null equals no member, so membership needs no test for it. -/
lemma memberHolds_false : memberHolds values false cell = values.any fun v => holds .eq cell v := by
  have hequal : (fun v => holds .eq cell v) = cell.equal := rfl
  rw [hequal, memberHolds, Bool.bne_false]
  cases cell with
  | null => simp [Value.equal, Value.compare, Value.isNull]
  | _ => simp [Value.isNull]

lemma memberHolds_true_iff :
    memberHolds values true cell = true ↔
      cell.isNull = false ∧ ∀ v ∈ values, cell.equal v = false := by
  simp [memberHolds]

lemma betweenHolds_false :
    betweenHolds low high false cell = (holds .gte cell low && holds .lte cell high) := by
  cases hlow : cell.compare low <;> cases hhigh : cell.compare high <;>
    simp [betweenHolds, holds, hlow, hhigh]

/-- Out of the range is below the one bound or above the other, where both say something. -/
lemma betweenHolds_true_iff :
    betweenHolds low high true cell = true ↔
      ((cell.compare low).isSome = true ∧ (cell.compare high).isSome = true) ∧
        (holds .lt cell low = true ∨ holds .gt cell high = true) := by
  cases hlow : cell.compare low with
  | none => simp [betweenHolds, hlow]
  | some first =>
    cases hhigh : cell.compare high with
    | none => simp [betweenHolds, hlow, hhigh]
    | some second => cases first <;> cases second <;> simp [betweenHolds, holds, hlow, hhigh]

/-- A range and its negation divide the cells that are comparable with both bounds. -/
lemma betweenHolds_or_iff :
    betweenHolds low high false cell = true ∨ betweenHolds low high true cell = true ↔
      (cell.compare low).isSome = true ∧ (cell.compare high).isSome = true := by
  cases hlow : cell.compare low with
  | none => simp [betweenHolds, hlow]
  | some first =>
    cases hhigh : cell.compare high with
    | none => simp [betweenHolds, hlow, hhigh]
    | some second => cases first <;> cases second <;> simp [betweenHolds, hlow, hhigh]

lemma not_betweenHolds_both :
    ¬(betweenHolds low high false cell = true ∧ betweenHolds low high true cell = true) := by
  cases hlow : cell.compare low <;> cases hhigh : cell.compare high <;>
    simp [betweenHolds, hlow, hhigh]

/-- Membership is equality with one of the members, and a range is two comparisons with its bounds.
The negation of a range is two comparisons as well, but only of a cell that is comparable with both
bounds, so on such cells just one of a range and its negation holds, and on all others neither. -/
theorem membership_and_range_expand (row : Row) (column : String) :
    (∀ values, (member column values false).eval row =
      (any (values.map (compare column .eq))).eval row) ∧
    ∀ low high,
      (between column low high false).eval row =
        (all [compare column .gte low, compare column .lte high]).eval row ∧
      ((between column low high true).eval row = true ↔
        (row.Comparable column low ∧ row.Comparable column high) ∧
          (any [compare column .lt low, compare column .gt high]).eval row = true) ∧
      ¬((between column low high false).eval row = true ∧
        (between column low high true).eval row = true) ∧
      ((between column low high false).eval row = true ∨
          (between column low high true).eval row = true ↔
        row.Comparable column low ∧ row.Comparable column high) := by
  cases hcell : row.get? column with
  | none => simp [Row.Comparable, hcell]
  | some cell =>
    have hcomparable : ∀ operand, row.Comparable column operand ↔
        (cell.compare operand).isSome = true := fun operand => by simp [Row.Comparable, hcell]
    simp only [eval_all, eval_any, eval_compare, eval_member, eval_between, hcell, hcomparable,
      Option.any_some, List.any_map, List.any_cons, List.any_nil, List.all_cons, List.all_nil,
      Bool.and_true, Bool.or_false, Bool.or_eq_true, Function.comp_def]
    refine ⟨fun values => ?_, fun low high => ⟨?_, ?_, ?_, ?_⟩⟩
    · exact memberHolds_false
    · exact betweenHolds_false
    · exact betweenHolds_true_iff
    · exact not_betweenHolds_both
    · exact betweenHolds_or_iff

-- the text is passed over, and both ends belong to the range
example :
    let row : Row := [("age", .int 20)]
    (member "age" [.text "x", .int 20] false).eval row = true ∧
      (between "age" (.int 18) (.int 20) false).eval row = true ∧
      (between "age" (.int 18) (.int 20) true).eval row = false := by decide

/-! ### Tests that hold although nothing is comparable -/

/-- The column that a comparison, a membership or a range looks at, with the values that it compares
the cell with. Patterns and tests for null compare with nothing. -/
def comparands? : Predicate → Option (String × List Value)
  | .compare _ .like _ | .compare _ .notLike _ => none
  | .compare column _ operand => some (column, [operand])
  | .member column values _ => some (column, values)
  | .between column low high _ => some (column, [low, high])
  | .isNull .. | .all _ | .any _ => none

variable {row : Row} {test : Predicate} {column : String} {operands : List Value}

/-- Every test but a negated membership holds only of a cell that is comparable with an operand. -/
lemma comparable_of_eval (htest : test.comparands? = some (column, operands))
    (h : test.eval row = true) :
    (∃ operand ∈ operands, row.Comparable column operand) ∨
      test = .member column operands true := by
  cases test with
  | compare field op operand =>
    rw [eval_compare, Option.any_eq_true] at h
    obtain ⟨cell, hcell, hholds⟩ := h
    have hplain : op ≠ .like ∧ op ≠ .notLike ∧ field = column ∧ [operand] = operands := by
      cases op <;> simp_all [comparands?]
    obtain ⟨hlike, hnotLike, rfl, rfl⟩ := hplain
    exact .inl ⟨operand, List.mem_singleton_self operand, cell, hcell,
      CompareOp.isSome_compare_of_holds hlike hnotLike hholds⟩
  | member field values negated =>
    rw [eval_member, Option.any_eq_true] at h
    obtain ⟨cell, hcell, hholds⟩ := h
    cases htest
    cases negated with
    | true => exact .inr rfl
    | false =>
      rw [memberHolds_false, List.any_eq_true] at hholds
      obtain ⟨operand, hoperand, hequal⟩ := hholds
      exact .inl ⟨operand, hoperand, cell, hcell,
        CompareOp.isSome_compare_of_holds (by decide) (by decide) hequal⟩
  | between field low high negated =>
    rw [eval_between, Option.any_eq_true] at h
    obtain ⟨cell, hcell, hholds⟩ := h
    cases htest
    have hboth : betweenHolds low high false cell = true ∨
        betweenHolds low high true cell = true := by
      cases negated with
      | false => exact .inl hholds
      | true => exact .inr hholds
    exact .inl ⟨low, List.mem_cons_self, cell, hcell, (betweenHolds_or_iff.mp hboth).1⟩
  | isNull field negated => cases htest
  | all children => cases htest
  | any children => cases htest

/-- Where nothing is comparable, a negated membership is the only test that may hold, and it holds
of every cell that is not null. -/
theorem eval_of_incomparable_iff (htest : test.comparands? = some (column, operands))
    (h : row.Incomparable column operands) :
    test.eval row = true ↔
      test = .member column operands true ∧ (row.present? column).isSome = true := by
  constructor
  · intro heval
    rcases comparable_of_eval htest heval with ⟨operand, hoperand, hcomparable⟩ | rfl
    · exact absurd hcomparable (h.not_comparable operand hoperand)
    · rw [eval_member, Option.any_eq_true] at heval
      obtain ⟨cell, hcell, hholds⟩ := heval
      have hpresent := (memberHolds_true_iff.mp hholds).1
      refine ⟨rfl, ?_⟩
      simp [Row.present?, hcell, hpresent]
  · rintro ⟨rfl, hpresent⟩
    obtain ⟨cell, hcell⟩ := Option.isSome_iff_exists.mp hpresent
    obtain ⟨hcell, hvalue⟩ := Option.filter_eq_some_iff.mp hcell
    rw [eval_member, Option.any_eq_true]
    refine ⟨cell, hcell, memberHolds_true_iff.mpr
      ⟨by simpa using hvalue, fun operand hoperand => ?_⟩⟩
    -- what is not comparable is not equal
    have hnone : cell.compare operand = none := by
      rw [← Option.not_isSome_iff_eq_none]
      exact fun hsome => h.not_comparable operand hoperand ⟨cell, hcell, hsome⟩
    rw [Value.equal, hnone]
    rfl

/-- Of a text beside numbers, a negated range does not hold and a negated membership does; of null
and of a missing cell, neither does. -/
theorem eval_of_incomparable_iff_four_cells :
    let row : Row := [("age", .text "x"), ("nick", .null)]
    let outside (column : String) := Predicate.between column (.int 1) (.int 9) true
    let notIn (column : String) := Predicate.member column [.int 1, .bool true] true
    (outside "age").eval row = false ∧ (notIn "age").eval row = true ∧
      (notIn "nick").eval row = false ∧ (notIn "team").eval row = false := by
  intro row outside notIn
  have hrange : row.Incomparable "age" [.int 1, .int 9] := .apart rfl (by decide)
  have hlist : row.Incomparable "age" [.int 1, .bool true] := .apart rfl (by decide)
  refine ⟨?_, (eval_of_incomparable_iff rfl hlist).mpr ⟨rfl, rfl⟩, ?_, ?_⟩
  · rw [Bool.eq_false_iff]
    intro heval
    cases ((eval_of_incomparable_iff rfl hrange).mp heval).1
  · rw [Bool.eq_false_iff]
    intro heval
    cases ((eval_of_incomparable_iff rfl (.null rfl)).mp heval).2
  · rw [Bool.eq_false_iff]
    intro heval
    cases ((eval_of_incomparable_iff rfl (.missing rfl)).mp heval).2

/-- A number passes for outside of a list that it is not comparable with. -/
theorem negated_membership_of_incomparable :
    let row : Row := [("age", .int 20)]
    let test := Predicate.member "age" [.text "x"] true
    test.comparands? = some ("age", [.text "x"]) ∧ row.Incomparable "age" [.text "x"] ∧
      ¬test.eval row = false := by
  intro row test
  exact ⟨rfl, .apart rfl (by decide), by decide⟩

end Predicate

end ParamQuery
