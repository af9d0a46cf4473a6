import ParamQuery.Binary64.Basic
import Mathlib.Tactic.Lemma

/-!
# Rounding keeps the order

A larger quotient never rounds to a smaller number. Comparison of binary64 numbers is comparison
of their levels, which are integers, and the level of a larger integer is never the smaller one.
-/

namespace ParamQuery.Binary64

lemma nearest_eq (n d : Nat) :
    nearest n d =
      n / d + if d < 2 * (n % d) ∨ (d = 2 * (n % d) ∧ n / d % 2 = 1) then 1 else 0 := by
  simp only [nearest]
  by_cases hbelow : 2 * (n % d) < d
  · rw [if_pos hbelow, if_neg (by omega)]
    rfl
  · by_cases habove : d < 2 * (n % d)
    · rw [if_neg hbelow, if_pos habove, if_pos (Or.inl habove)]
    · rw [if_neg hbelow, if_neg habove]
      split
      · rw [if_neg (by omega)]
        rfl
      · rw [if_pos (by omega)]

lemma nearest_mul_self (q : Nat) {d : Nat} (hd : 0 < d) : nearest (q * d) d = q := by
  rw [nearest_eq, Nat.mul_mod_left, Nat.mul_div_cancel q hd, if_neg (by omega)]
  rfl

lemma div_le_nearest (n d : Nat) : n / d ≤ nearest n d := by
  rw [nearest_eq]
  exact Nat.le_add_right _ _

lemma nearest_mono {m n : Nat} (d : Nat) (h : m ≤ n) : nearest m d ≤ nearest n d := by
  have hdiv : m / d ≤ n / d := Nat.div_le_div_right h
  rw [nearest_eq, nearest_eq]
  rcases Nat.lt_or_eq_of_le hdiv with hlt | heq
  · split <;> split <;> omega
  · have hmod : m % d ≤ n % d := by
      have hm := Nat.div_add_mod m d
      have hn := Nat.div_add_mod n d
      rw [heq] at hm
      omega
    rw [heq]
    split <;> split <;> omega

lemma twoTo_le_of_spacingExponent_pos {n : Nat} (h : 0 < spacingExponent n) :
    twoTo (spacingExponent n + 52) ≤ n := by
  have hlog : spacingExponent n + 52 = n.log2 := by
    simp only [spacingExponent, precision] at h ⊢
    omega
  have hne : n ≠ 0 := by
    rintro rfl
    simp [spacingExponent] at h
  rw [hlog]
  exact Nat.log2_self_le hne

lemma lt_twoTo_spacingExponent (n : Nat) : n < twoTo (spacingExponent n + 53) := by
  apply Nat.lt_of_lt_of_le (lt_twoTo_log2_succ n)
  apply twoTo_le_twoTo
  simp only [spacingExponent, precision]
  omega

lemma nearestUnits_le_twoTo {n d k : Nat} (hd : 0 < d) (h : n / d < twoTo k)
    (hk : spacingExponent (n / d) ≤ k) : nearestUnits n d ≤ twoTo k := by
  let scale := spacingExponent (n / d)
  have hsplit : twoTo k = twoTo (k - scale) * twoTo scale := by
    rw [← twoTo_add, Nat.sub_add_cancel hk]
  have hspacing : 0 < d * twoTo scale := Nat.mul_pos hd (twoTo_pos scale)
  have hn : n ≤ twoTo (k - scale) * (d * twoTo scale) := by
    rw [Nat.mul_left_comm, ← hsplit, Nat.mul_comm]
    exact Nat.le_of_lt (Nat.lt_mul_of_div_lt h hd)
  have hnear := nearest_mono (d * twoTo scale) hn
  rw [nearest_mul_self _ hspacing] at hnear
  rw [hsplit]
  exact Nat.mul_le_mul_right (twoTo scale) hnear

lemma twoTo_le_nearestUnits {n d : Nat} (h : 0 < spacingExponent (n / d)) :
    twoTo (spacingExponent (n / d) + 52) ≤ nearestUnits n d := by
  let scale := spacingExponent (n / d)
  have hdiv : twoTo 52 ≤ n / (d * twoTo scale) := by
    rw [← Nat.div_div_eq_div_mul, Nat.le_div_iff_mul_le (twoTo_pos scale), ← twoTo_add,
      Nat.add_comm]
    exact twoTo_le_of_spacingExponent_pos h
  rw [Nat.add_comm, twoTo_add]
  exact Nat.mul_le_mul_right (twoTo scale) (Nat.le_trans hdiv (div_le_nearest n _))

theorem nearestUnits_mono {m n d : Nat} (hd : 0 < d) (h : m ≤ n) :
    nearestUnits m d ≤ nearestUnits n d := by
  have hdiv : m / d ≤ n / d := Nat.div_le_div_right h
  have hm := lt_twoTo_spacingExponent (m / d)
  rcases Nat.lt_trichotomy (spacingExponent (m / d)) (spacingExponent (n / d)) with
    hlt | heq | hgt
  -- a power of two lies between numbers of different spacing, and is on both grids
  · have hn : 0 < spacingExponent (n / d) := by omega
    have hbound : m / d < twoTo (spacingExponent (n / d) + 52) :=
      Nat.lt_of_lt_of_le hm (twoTo_le_twoTo (by omega))
    have hbelow := nearestUnits_le_twoTo hd hbound (by omega)
    exact Nat.le_trans hbelow (twoTo_le_nearestUnits hn)
  · simp only [nearestUnits, heq]
    exact Nat.mul_le_mul_right _ (nearest_mono _ h)
  · have hpower := twoTo_le_of_spacingExponent_pos (Nat.zero_lt_of_lt hgt)
    have hn := lt_twoTo_spacingExponent (n / d)
    have hexponents : twoTo (spacingExponent (n / d) + 53) ≤
        twoTo (spacingExponent (m / d) + 52) := twoTo_le_twoTo (by omega)
    omega

/-- The units of a number with its sign, and for an infinity the power of two past the finite
numbers. -/
def level? : Binary64 → Option Int
  | .nan => none
  | .infinite negative => some (signed negative (twoTo magnitudeBits))
  | .finite negative units _ => some (signed negative units)

lemma signed_bounds {negative : Bool} {units bound : Nat} (h : units < bound) :
    -(bound : Int) < signed negative units ∧ signed negative units < bound := by
  cases negative <;> simp only [signed] <;> simp <;> omega

lemma compare_infinite {negative : Bool} {level : Int} {bound : Nat}
    (h : -(bound : Int) < level ∧ level < bound) :
    Ord.compare (signed negative bound) level = if negative then .lt else .gt := by
  cases negative with
  | false => exact Int.compare_eq_gt.mpr h.2
  | true => exact Int.compare_eq_lt.mpr h.1

lemma compare_infinities {bound : Nat} (h : 0 < bound) (a b : Bool) :
    Ord.compare (signed a bound) (signed b bound) = Ord.compare b a := by
  cases a <;> cases b
  · exact Int.compare_eq_eq.mpr rfl
  · have hlt : -(bound : Int) < bound := by omega
    exact Int.compare_eq_gt.mpr hlt
  · have hlt : -(bound : Int) < bound := by omega
    exact Int.compare_eq_lt.mpr hlt
  · exact Int.compare_eq_eq.mpr rfl

theorem compare_of_level? {x y : Binary64} {l m : Int} (hx : x.level? = some l)
    (hy : y.level? = some m) : x.compare y = some (Ord.compare l m) := by
  cases x with
  | nan => exact absurd hx (by simp [level?])
  | infinite a =>
    obtain rfl := Option.some.inj hx
    cases y with
    | nan => exact absurd hy (by simp [level?])
    | infinite b =>
      obtain rfl := Option.some.inj hy
      rw [compare, compare_infinities (twoTo_pos _)]
    | finite b v hv =>
      obtain rfl := Option.some.inj hy
      rw [compare, compare_infinite (signed_bounds hv.1)]
  | finite a u hu =>
    obtain rfl := Option.some.inj hx
    cases y with
    | nan => exact absurd hy (by simp [level?])
    | infinite b =>
      obtain rfl := Option.some.inj hy
      rw [compare, Std.OrientedOrd.eq_swap, compare_infinite (signed_bounds hu.1)]
      cases b <;> rfl
    | finite b v hv =>
      obtain rfl := Option.some.inj hy
      rfl

lemma compare_eq_none_left {x : Binary64} (y : Binary64) (h : x.level? = none) :
    x.compare y = none := by
  cases x with
  | nan => rfl
  | infinite _ => exact absurd h (Option.some_ne_none _)
  | finite _ _ _ => exact absurd h (Option.some_ne_none _)

lemma compare_eq_none_right (x : Binary64) {y : Binary64} (h : y.level? = none) :
    x.compare y = none := by
  cases y with
  | nan => cases x <;> rfl
  | infinite _ => exact absurd h (Option.some_ne_none _)
  | finite _ _ _ => exact absurd h (Option.some_ne_none _)

lemma level?_round (negative : Bool) (n d : Nat) :
    (round negative n d).level? =
      some (signed negative (min (nearestUnits n d) (twoTo magnitudeBits))) := by
  simp only [round]
  split
  · next h => simp only [level?, Nat.min_eq_left (Nat.le_of_lt h)]
  · next h => simp only [level?, Nat.min_eq_right (Nat.le_of_not_lt h)]

/-- The level to which an integer is rounded. -/
def roundedLevel (i : Int) : Int :=
  signed (i < 0) (min (nearestUnits (i.natAbs * twoTo unitExponent) 1) (twoTo magnitudeBits))

lemma level?_ofInt (i : Int) : (ofInt i).level? = some (roundedLevel i) := level?_round _ _ _

theorem roundedLevel_mono {i j : Int} (h : i ≤ j) : roundedLevel i ≤ roundedLevel j := by
  have hunits : ∀ m n : Nat, m ≤ n →
      min (nearestUnits (m * twoTo unitExponent) 1) (twoTo magnitudeBits) ≤
        min (nearestUnits (n * twoTo unitExponent) 1) (twoTo magnitudeBits) := by
    intro m n hmn
    have hnear := nearestUnits_mono Nat.one_pos (Nat.mul_le_mul_right (twoTo unitExponent) hmn)
    omega
  simp only [roundedLevel, signed, decide_eq_true_eq]
  by_cases hi : i < 0
  · by_cases hj : j < 0
    · have hmagnitude := hunits j.natAbs i.natAbs (by omega)
      rw [if_pos hi, if_pos hj]
      omega
    · rw [if_pos hi, if_neg hj]
      omega
  · have hmagnitude := hunits i.natAbs j.natAbs (by omega)
    rw [if_neg hi, if_neg (by omega)]
    omega

end ParamQuery.Binary64
