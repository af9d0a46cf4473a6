import ParamQuery.Binary64.Basic

/-!
# The shortest decimal of a binary64 number

A finite number is written with the fewest digits that read back to it, and of those with the
nearest. Decimals with a fixed number of places form a grid; the coarsest grid with a point
among the numbers that read back holds the answer. All quantities are scaled by `10 ^ 1076`, a
scale on which the number and the middles to its neighbours are whole.
-/

namespace ParamQuery.Binary64

/-- The decimal places of the scale. -/
def places : Nat := unitExponent + 2

/-- The decimals that read back to a number: from `low` to `high`, ends included if `closed`. -/
structure Interval where
  low : Nat
  value : Nat
  high : Nat
  closed : Bool

def Interval.holds (i : Interval) (n : Nat) : Bool :=
  if i.closed then i.low ≤ n && n ≤ i.high else i.low < n && n < i.high

/-- Below a power of two the neighbour is nearer. -/
def interval (units : Nat) : Interval :=
  let scale := spacingExponent units
  let half := 2 * twoTo scale
  let below := if scale ≠ 0 ∧ units = twoTo units.log2 then half / 2 else half
  let unit := Nat.pow 5 places
  { low := (4 * units - below) * unit
    value := 4 * units * unit
    high := (4 * units + half) * unit
    closed := units / twoTo scale % 2 = 0 }

/-- The nearest point of the interval on the grid of multiples of `10 ^ step`; a tie goes up. -/
def gridPoint? (i : Interval) (step : Nat) : Option Nat :=
  let floor := i.value / tenTo step
  let rest := i.value % tenTo step
  let near := if 2 * rest < tenTo step then [floor, floor + 1] else [floor + 1, floor]
  near.find? fun n => i.holds (n * tenTo step)

/-- The point on the coarsest grid at most `step` that has one, with its grid. -/
def coarsest (i : Interval) : Nat → Nat × Nat
  | 0 => ((gridPoint? i 0).getD i.value, 0)
  | step + 1 =>
    match gridPoint? i (step + 1) with
    | some n => (n, step + 1)
    | none => coarsest i step

/-- Positional notation of `n * 10 ^ step` on the scale of `10 ^ places`. -/
def positional (n step : Nat) : List Char :=
  if places ≤ step then Nat.toDigits 10 (n * tenTo (step - places))
  else
    let fractionPlaces := places - step
    let fraction := Nat.toDigits 10 (n % tenTo fractionPlaces)
    Nat.toDigits 10 (n / tenTo fractionPlaces) ++
      '.' :: (List.replicate (fractionPlaces - fraction.length) '0' ++ fraction)

def magnitudeText (units : Nat) : List Char :=
  if units = 0 then ['0']
  else
    let i := interval units
    let (n, step) := coarsest i (Nat.toDigits 10 i.value).length
    positional n step

/-- Numbers are written positionally, without an exponent. -/
def toText : Binary64 → String
  | .nan => "NaN"
  | .infinite negative => if negative then "-inf" else "inf"
  | .finite negative units _ =>
    (if negative then "-" else "") ++ String.ofList (magnitudeText units)

end ParamQuery.Binary64
