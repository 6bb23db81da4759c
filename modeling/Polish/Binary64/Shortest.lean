import Polish.Decimal

/-!
# The shortest decimal of a double

The decimal written for a finite double is taken from the coarsest grid of multiples of a power of ten that has a
point which reads back as that double. On that grid it is the point nearest to the double, the upper one of
two equally near points. The search starts at a grid as coarse as the double itself and needs at most seventeen
significant digits.
-/

namespace Polish.Binary64.Magnitude

/-- How often the grid step `10 ^ exponent` fits into the magnitude. -/
def stepsBelow (m : Magnitude) (exponent : Int) : Nat :=
  m.units * 10 ^ (-exponent).toNat / (2 ^ (1074 : Nat) * 10 ^ exponent.toNat)

/-- Whether the magnitude lies nearer to the grid point just below it than to the one just above. -/
def isNearerBelow (m : Magnitude) (exponent : Int) : Bool :=
  2 * (m.units * 10 ^ (-exponent).toNat) < (2 * m.stepsBelow exponent + 1) * (2 ^ (1074 : Nat) * 10 ^ exponent.toNat)

/-- The point to write on one grid: of the magnitude's two neighbours the nearer that reads back, if any. -/
def onGrid? (m : Magnitude) (exponent : Int) : Option Decimal :=
  let below : Decimal := ⟨m.stepsBelow exponent, exponent⟩
  let above : Decimal := ⟨m.stepsBelow exponent + 1, exponent⟩
  if below.units = m.units then
    if above.units = m.units ∧ ¬ m.isNearerBelow exponent then some above else some below
  else if above.units = m.units then some above
  else none

/-- The magnitude itself as a decimal. -/
def exact (m : Magnitude) : Decimal := ⟨m.units * 5 ^ (1074 : Nat), -1074⟩

/-- The point of the coarsest of `grids` grids, from `exponent` downwards, that reads back. -/
def coarsest (m : Magnitude) (exponent : Int) : (grids : Nat) → Decimal
  | 0 => m.exact
  | grids + 1 => (m.onGrid? exponent).getD (m.coarsest (exponent - 1) grids)

/-- The exponent of a grid whose step is at least a positive magnitude and at most ten times as large. -/
def topExponent (m : Magnitude) : Int :=
  if 2 ^ (1074 : Nat) ≤ m.units then (Nat.toDigits 10 (m.units / 2 ^ (1074 : Nat))).length
  else 1 - (Nat.toDigits 10 (2 ^ (1074 : Nat) / m.units)).length

/-- The shortest decimal that reads back as the magnitude, and the nearest to it of that length. -/
def shortest (m : Magnitude) : Decimal := m.coarsest m.topExponent 18

end Polish.Binary64.Magnitude
