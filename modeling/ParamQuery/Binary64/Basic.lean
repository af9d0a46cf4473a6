import ParamQuery.Power

/-!
# Binary64 numbers

Every finite binary64 number is a whole multiple of the smallest positive one, `2 ^ (-1074)`.
A finite number is kept here as a sign and that multiple, its number of units, so comparison is
comparison of integers and rounding is division of natural numbers. `round` takes an exact
quotient to the nearest number, ties to the even significand, and is the only way a finite
number other than zero is made.
-/

namespace ParamQuery

namespace Binary64

/-- The base two exponent of the number of units in one. -/
def unitExponent : Nat := 1074

/-- Significands have 53 bits. -/
def precision : Nat := 53

/-- The finite numbers are below `2 ^ 1024`, which is `2 ^ 2098` units. -/
def magnitudeBits : Nat := 2098

/-- The numbers of units that are finite binary64 magnitudes. -/
def Representable (units : Nat) : Prop :=
  units < twoTo magnitudeBits ∧ ∃ significand scale, significand < twoTo precision ∧
    units = significand * twoTo scale

theorem representable_zero : Representable 0 :=
  ⟨twoTo_pos _, 0, 0, twoTo_pos _, (Nat.zero_mul _).symm⟩

end Binary64

inductive Binary64 where
  | nan
  | infinite (negative : Bool)
  | finite (negative : Bool) (units : Nat) (representable : Binary64.Representable units)
  deriving DecidableEq

namespace Binary64

def isFinite : Binary64 → Bool
  | .finite .. => true
  | _ => false

def zero (negative : Bool) : Binary64 := .finite negative 0 representable_zero

/-- The nearest whole number to a quotient; a half goes to the even neighbour. -/
def nearest (numerator denominator : Nat) : Nat :=
  let floor := numerator / denominator
  let rest := numerator % denominator
  if 2 * rest < denominator then floor
  else if denominator < 2 * rest then floor + 1
  else if floor % 2 = 0 then floor else floor + 1

/-- The base two logarithm of the spacing of the numbers around `units`. -/
def spacingExponent (units : Nat) : Nat := units.log2 - (precision - 1)

theorem nearest_le (numerator denominator : Nat) :
    nearest numerator denominator ≤ numerator / denominator + 1 := by
  simp only [nearest]
  split
  · omega
  · split
    · omega
    · split <;> omega

/-- A quotient on the grid of its own spacing has a significand of at most `2 ^ 53`. -/
theorem nearest_le_twoTo (numerator denominator : Nat) :
    nearest numerator (denominator * twoTo (spacingExponent (numerator / denominator))) ≤
      twoTo precision := by
  have hnear := nearest_le numerator
    (denominator * twoTo (spacingExponent (numerator / denominator)))
  rw [← Nat.div_div_eq_div_mul] at hnear
  have hlt : numerator / denominator <
      twoTo precision * twoTo (spacingExponent (numerator / denominator)) := by
    rw [← twoTo_add]
    apply Nat.lt_of_lt_of_le (lt_twoTo_log2_succ (numerator / denominator))
    apply twoTo_le_twoTo
    simp only [spacingExponent, precision]
    omega
  have hdiv := Nat.div_lt_of_lt_mul (Nat.mul_comm _ _ ▸ hlt)
  omega

theorem representable_scaled {significand scale : Nat} (hs : significand ≤ twoTo precision)
    (h : significand * twoTo scale < twoTo magnitudeBits) :
    Representable (significand * twoTo scale) := by
  refine ⟨h, ?_⟩
  rcases Nat.lt_or_eq_of_le hs with hlt | heq
  · exact ⟨significand, scale, hlt, rfl⟩
  · refine ⟨twoTo (precision - 1), scale + 1, by decide, ?_⟩
    rw [heq, ← twoTo_add, ← twoTo_add]
    congr 1
    simp only [precision]
    omega

/-- The nearest number of units to a quotient, whatever its size. -/
def nearestUnits (numerator denominator : Nat) : Nat :=
  let scale := spacingExponent (numerator / denominator)
  nearest numerator (denominator * twoTo scale) * twoTo scale

/-- The number nearest to `numerator / denominator` units. -/
def round (negative : Bool) (numerator denominator : Nat) : Binary64 :=
  let units := nearestUnits numerator denominator
  if h : units < twoTo magnitudeBits then
    .finite negative units (representable_scaled (nearest_le_twoTo numerator denominator) h)
  else .infinite negative

def ofInt (i : Int) : Binary64 := round (i < 0) (i.natAbs * twoTo unitExponent) 1

/-- The units of a finite number with its sign. -/
def signed (negative : Bool) (units : Nat) : Int := if negative then -units else units

/-- The order of the extended reals; a NaN is comparable with nothing. -/
def compare : Binary64 → Binary64 → Option Ordering
  | .nan, _ | _, .nan => none
  | .infinite a, .infinite b => some (Ord.compare b a)
  | .infinite a, .finite .. => some (if a then .lt else .gt)
  | .finite .., .infinite b => some (if b then .gt else .lt)
  | .finite a u _, .finite b v _ => some (Ord.compare (signed a u) (signed b v))

/-- Equality of values: the two zeros are equal and a NaN equals nothing. -/
def equal (x y : Binary64) : Bool := x.compare y == some .eq

end Binary64

end ParamQuery
