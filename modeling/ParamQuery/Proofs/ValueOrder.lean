import ParamQuery.Proofs.Rounding
import ParamQuery.Value.Basic

/-!
# Comparison of values

Comparison divides the values into families, and within a family it is transitive where it is
strict. Its ties are not transitive: two integers that differ can both tie with the float that
they are rounded to.
-/

namespace ParamQuery

/-- What comparison sees of a number. -/
inductive Number where
  | whole (i : Int)
  | real (level : Int)

namespace Number

def level : Number → Int
  | .whole i => Binary64.roundedLevel i
  | .real level => level

def compare : Number → Number → Ordering
  | .whole i, .whole j => Ord.compare i j
  | m, n => Ord.compare m.level n.level

lemma swap_compare (m n : Number) : (m.compare n).swap = n.compare m := by
  cases m <;> cases n <;> exact Int.compare_swap _ _

lemma compare_real_left (l : Int) (n : Number) : (real l).compare n = Ord.compare l n.level := rfl

lemma compare_real_right (m : Number) (l : Int) : m.compare (.real l) = Ord.compare m.level l := by
  cases m <;> rfl

lemma level_le_of_lt {m n : Number} (h : m.compare n = .lt) : m.level ≤ n.level := by
  cases m with
  | real l => exact Int.le_of_lt (Int.compare_eq_lt.mp h)
  | whole i =>
    cases n with
    | real l => exact Int.le_of_lt (Int.compare_eq_lt.mp h)
    | whole j => exact Binary64.roundedLevel_mono (Int.le_of_lt (Int.compare_eq_lt.mp h))

lemma lt_trans {m n k : Number} (hmn : m.compare n = .lt) (hnk : n.compare k = .lt) :
    m.compare k = .lt := by
  have hlevel := level_le_of_lt hmn
  have hlevel' := level_le_of_lt hnk
  cases m with
  | real l =>
    have hstrict := Int.compare_eq_lt.mp hmn
    exact Int.compare_eq_lt.mpr (Int.lt_of_lt_of_le hstrict hlevel')
  | whole i =>
    cases k with
    | real l =>
      rw [compare_real_right] at hnk
      have hstrict := Int.compare_eq_lt.mp hnk
      exact Int.compare_eq_lt.mpr (Int.lt_of_le_of_lt hlevel hstrict)
    | whole j =>
      cases n with
      | real l =>
        have hstrict := Int.compare_eq_lt.mp hmn
        have hij : ¬ j ≤ i := by
          intro hji
          have hrounded := Binary64.roundedLevel_mono hji
          simp only [level] at hlevel' hstrict
          omega
        exact Int.compare_eq_lt.mpr (by omega)
      | whole k =>
        have hik := Int.compare_eq_lt.mp hmn
        have hkj := Int.compare_eq_lt.mp hnk
        exact Int.compare_eq_lt.mpr (by omega)

/-- A number that ties with two that do not tie is the float that both integers are rounded to. -/
lemma eq_between {m n k : Number} (hmn : m.compare n = .eq) (hnk : n.compare k = .eq)
    (hmk : m.compare k ≠ .eq) :
    ∃ i l j, m = .whole i ∧ n = .real l ∧ k = .whole j := by
  cases n with
  | whole c =>
    exfalso
    cases m with
    | whole a =>
      obtain rfl := Int.compare_eq_eq.mp hmn
      exact hmk hnk
    | real a =>
      cases k with
      | whole b =>
        obtain rfl := Int.compare_eq_eq.mp hnk
        exact hmk hmn
      | real b =>
        have hac := Int.compare_eq_eq.mp hmn
        have hcb := Int.compare_eq_eq.mp hnk
        exact hmk (Int.compare_eq_eq.mpr (hac.trans hcb))
  | real c =>
    rw [compare_real_right] at hmn
    have hac := Int.compare_eq_eq.mp hmn
    have hcb := Int.compare_eq_eq.mp hnk
    cases m with
    | real a => exact absurd (Int.compare_eq_eq.mpr (hac.trans hcb)) hmk
    | whole a =>
      cases k with
      | real b => exact absurd (Int.compare_eq_eq.mpr (hac.trans hcb)) hmk
      | whole b => exact ⟨a, c, b, rfl, rfl, rfl⟩

end Number

namespace Value

def number? : Value → Option Number
  | .int i => some (.whole i.toInt)
  | .float x => x.level?.map .real
  | _ => none

/-- The three ways in which two values are comparable. -/
inductive Comparison : Value → Value → Ordering → Prop where
  | bool {a b : Bool} {o : Ordering} (h : Ord.compare a b = o) :
      Comparison (.bool a) (.bool b) o
  | text {s t : String} {o : Ordering} (h : Ord.compare s t = o) :
      Comparison (.text s) (.text t) o
  | number {u v : Value} {m n : Number} {o : Ordering} (hu : u.number? = some m)
      (hv : v.number? = some n) (h : m.compare n = o) : Comparison u v o

lemma number?_eq_some {u : Value} {m : Number} (h : u.number? = some m) :
    (∃ i, u = .int i ∧ m = .whole i.toInt) ∨
      ∃ x l, u = .float x ∧ x.level? = some l ∧ m = .real l := by
  cases u with
  | int i => exact .inl ⟨i, rfl, (Option.some.inj h).symm⟩
  | float x =>
    obtain ⟨l, hl, hm⟩ := Option.map_eq_some_iff.mp h
    exact .inr ⟨x, l, rfl, hl, hm.symm⟩
  | null => exact absurd h (by simp [number?])
  | bool b => exact absurd h (by simp [number?])
  | text s => exact absurd h (by simp [number?])

lemma eq_int_of_number? {u : Value} {i : Int} (h : u.number? = some (.whole i)) :
    ∃ j, u = .int j := by
  obtain ⟨j, hu, -⟩ | ⟨x, l, -, -, hl⟩ := number?_eq_some h
  · exact ⟨j, hu⟩
  · exact absurd hl (by simp)

lemma eq_float_of_number? {u : Value} {l : Int} (h : u.number? = some (.real l)) :
    ∃ x, u = .float x := by
  obtain ⟨j, -, hj⟩ | ⟨x, l, hu, -, -⟩ := number?_eq_some h
  · exact absurd hj (by simp)
  · exact ⟨x, hu⟩

lemma compare_of_number? {u v : Value} {m n : Number} (hu : u.number? = some m)
    (hv : v.number? = some n) : u.compare v = some (m.compare n) := by
  obtain ⟨i, rfl, rfl⟩ | ⟨x, l, rfl, hx, rfl⟩ := number?_eq_some hu <;>
    obtain ⟨j, rfl, rfl⟩ | ⟨y, k, rfl, hy, rfl⟩ := number?_eq_some hv
  · rfl
  · rw [compare, Number.compare_real_right, Number.level]
    exact Binary64.compare_of_level? (Binary64.level?_ofInt i.toInt) hy
  · rw [compare, Number.compare_real_left, Number.level]
    exact Binary64.compare_of_level? hx (Binary64.level?_ofInt j.toInt)
  · exact Binary64.compare_of_level? hx hy

lemma level?_of_compare {x y : Binary64} {o : Ordering} (h : x.compare y = some o) :
    ∃ l m, x.level? = some l ∧ y.level? = some m ∧ Ord.compare l m = o := by
  cases hx : x.level? with
  | none => exact absurd h (by simp [Binary64.compare_eq_none_left y hx])
  | some l =>
    cases hy : y.level? with
    | none => exact absurd h (by simp [Binary64.compare_eq_none_right x hy])
    | some m =>
      rw [Binary64.compare_of_level? hx hy] at h
      exact ⟨l, m, rfl, rfl, Option.some.inj h⟩

lemma number?_float {x : Binary64} {l : Int} (h : x.level? = some l) :
    (Value.float x).number? = some (.real l) := by
  rw [number?, h]
  rfl

theorem compare_eq_some_iff {u v : Value} {o : Ordering} :
    u.compare v = some o ↔ Comparison u v o := by
  constructor
  · intro h
    unfold compare at h
    split at h
    · exact .bool (Option.some.inj h)
    · exact .number rfl rfl (Option.some.inj h)
    · obtain ⟨l, m, hx, hy, hlm⟩ := level?_of_compare h
      refine .number (number?_float hx) (number?_float hy) ?_
      exact hlm
    · next i y =>
      obtain ⟨l, m, hx, hy, hlm⟩ := level?_of_compare h
      obtain rfl := Option.some.inj ((Binary64.level?_ofInt i.toInt).symm.trans hx)
      refine .number rfl (number?_float hy) ?_
      exact hlm
    · next x j =>
      obtain ⟨l, m, hx, hy, hlm⟩ := level?_of_compare h
      obtain rfl := Option.some.inj ((Binary64.level?_ofInt j.toInt).symm.trans hy)
      refine .number (number?_float hx) rfl ?_
      exact hlm
    · exact .text (Option.some.inj h)
    · contradiction
  · rintro (h | h | ⟨hu, hv, h⟩)
    · exact congrArg some h
    · exact congrArg some h
    · rw [compare_of_number? hu hv, h]

/-- The two sides of a comparison change places. -/
lemma swap_comparison {u v : Value} {o : Ordering} (h : Comparison u v o) :
    Comparison v u o.swap := by
  cases h with
  | bool h => exact .bool (by rw [Std.OrientedOrd.eq_swap, h])
  | text h => exact .text (by rw [Std.OrientedOrd.eq_swap, h])
  | number hu hv h => exact .number hv hu (by rw [← Number.swap_compare, h])

theorem compare_swap (u v : Value) : v.compare u = (u.compare v).map Ordering.swap := by
  cases huv : u.compare v with
  | some o => exact compare_eq_some_iff.mpr (swap_comparison (compare_eq_some_iff.mp huv))
  | none =>
    cases hvu : v.compare u with
    | none => rfl
    | some o =>
      have h := compare_eq_some_iff.mpr (swap_comparison (compare_eq_some_iff.mp hvu))
      exact absurd (huv.symm.trans h) (Option.some_ne_none _).symm

/-- Two comparisons in a row, all in one family. -/
inductive Chain : Value → Value → Value → Ordering → Ordering → Prop where
  | bool {a b c : Bool} {o r : Ordering} (h : Ord.compare a b = o) (h' : Ord.compare b c = r) :
      Chain (.bool a) (.bool b) (.bool c) o r
  | text {s t u : String} {o r : Ordering} (h : Ord.compare s t = o) (h' : Ord.compare t u = r) :
      Chain (.text s) (.text t) (.text u) o r
  | number {u v w : Value} {m n k : Number} {o r : Ordering} (hu : u.number? = some m)
      (hv : v.number? = some n) (hw : w.number? = some k) (h : m.compare n = o)
      (h' : n.compare k = r) : Chain u v w o r

lemma chain_of_compare {u v w : Value} {o r : Ordering} (huv : u.compare v = some o)
    (hvw : v.compare w = some r) : Chain u v w o r := by
  rw [compare_eq_some_iff] at huv hvw
  cases huv with
  | bool h =>
    cases hvw with
    | bool h' => exact .bool h h'
    | number hv hw h' => simp [number?] at hv
  | text h =>
    cases hvw with
    | text h' => exact .text h h'
    | number hv hw h' => simp [number?] at hv
  | number hu hv h =>
    cases hvw with
    | bool h' => simp [number?] at hv
    | text h' => simp [number?] at hv
    | number hv' hw h' =>
      obtain rfl := Option.some.inj (hv.symm.trans hv')
      exact .number hu hv hw h h'

/-- Values that are comparable with one value are comparable. -/
lemma comparable_trans {u v w : Value} {o r : Ordering} (huv : u.compare v = some o)
    (hvw : v.compare w = some r) : ∃ t, u.compare w = some t := by
  cases chain_of_compare huv hvw with
  | bool h h' => exact ⟨_, rfl⟩
  | text h h' => exact ⟨_, rfl⟩
  | number hu hv hw h h' => exact ⟨_, compare_of_number? hu hw⟩

theorem lt_trans {u v w : Value} (huv : u.compare v = some .lt) (hvw : v.compare w = some .lt) :
    u.compare w = some .lt := by
  cases chain_of_compare huv hvw with
  | bool h h' => exact congrArg some (Std.TransCmp.lt_trans h h')
  | text h h' => exact congrArg some (Std.TransCmp.lt_trans h h')
  | number hu hv hw h h' => rw [compare_of_number? hu hw, Number.lt_trans h h']

/-- A value between two others that ties with both of them: comparable with neither, or the
float that both are rounded to. -/
inductive Bridge : Value → Value → Value → Prop where
  | apart {u v w : Value} (huv : u.compare v = none) (hvw : v.compare w = none) : Bridge u v w
  | rounded {i j : Int64} {x : Binary64}
      (hi : (Binary64.ofInt i.toInt).compare x = some .eq)
      (hj : (Binary64.ofInt j.toInt).compare x = some .eq) :
      Bridge (.int i) (.float x) (.int j)

/-- Only the numbers have ties that are not equalities. -/
lemma bridge_of_eq {u v w : Value} {o : Ordering} (huv : u.compare v = some .eq)
    (hvw : v.compare w = some .eq) (huw : u.compare w = some o) (ho : o ≠ .eq) :
    Bridge u v w := by
  cases chain_of_compare huv hvw with
  | bool h h' => exact absurd ((Option.some.inj huw).symm.trans (Std.TransCmp.eq_trans h h')) ho
  | text h h' => exact absurd ((Option.some.inj huw).symm.trans (Std.TransCmp.eq_trans h h')) ho
  | @number _ _ _ m n k _ _ hu hv hw h h' =>
    rw [compare_of_number? hu hw] at huw
    have hmk : m.compare k ≠ .eq := fun heq => ho ((Option.some.inj huw).symm.trans heq)
    obtain ⟨i, l, j, rfl, rfl, rfl⟩ := Number.eq_between h h' hmk
    obtain ⟨i, rfl⟩ := eq_int_of_number? hu
    obtain ⟨x, rfl⟩ := eq_float_of_number? hv
    obtain ⟨j, rfl⟩ := eq_int_of_number? hw
    have hwv := compare_swap (float x) (int j)
    rw [hvw] at hwv
    exact .rounded huv hwv

theorem ties_iff_bridge {u v w : Value} {o : Ordering} (huw : u.compare w = some o)
    (ho : o ≠ .eq) :
    (u.compare v).getD .eq = .eq ∧ (v.compare w).getD .eq = .eq ↔ Bridge u v w := by
  constructor
  · rintro ⟨huv, hvw⟩
    have hwu := compare_swap u w
    rw [huw] at hwu
    cases hv : u.compare v with
    | none =>
      cases hw : v.compare w with
      | none => exact .apart hv hw
      | some r =>
        -- `v` would be comparable with `u` through `w`
        have hwv := compare_swap v w
        rw [hw] at hwv
        obtain ⟨t, ht⟩ := comparable_trans huw hwv
        simp [hv] at ht
    | some r =>
      cases hw : v.compare w with
      | none =>
        have hwv := compare_swap v w
        rw [hw] at hwv
        obtain ⟨t, ht⟩ := comparable_trans hwu hv
        simp [hwv] at ht
      | some t =>
        rw [hv] at huv
        rw [hw] at hvw
        exact bridge_of_eq (hv.trans (congrArg some huv)) (hw.trans (congrArg some hvw)) huw ho
  · intro h
    cases h with
    | apart huv hvw => exact ⟨by rw [huv]; rfl, by rw [hvw]; rfl⟩
    | @rounded i j x hi hj =>
      have hi' : (int i).compare (float x) = some .eq := hi
      have hj' : (int j).compare (float x) = some .eq := hj
      refine ⟨by rw [hi']; rfl, ?_⟩
      rw [compare_swap, hj']
      rfl

end Value

end ParamQuery
