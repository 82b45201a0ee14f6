import LoadGenerator.Binary64

/-!
# Decimal digits of binary64 numbers

Two directions. `shortest` finds the fewest decimal digits that read back as the same number: it walks the decimal grids from coarse to fine and stops at the first grid with a point among the reals that round to the number. `ofDecimal` reads digits and a power of ten to the nearest number.
-/

namespace LoadGenerator

structure Decimal where
  digits : Nat
  exponent : Int
  deriving DecidableEq

/-- Which of two grid points is taken when both are equally near. -/
inductive Tie where
  | up
  | even
  deriving DecidableEq

namespace Binary64

/-- Four times the distance from the number down to the middle of the gap below it, in units of the last place. -/
def gapBelow (x : Binary64) : Nat :=
  if x.magnitude % leadingBit = 0 ∧ 2 * leadingBit ≤ x.magnitude then 1 else 2

/-- The point of the grid `10 ^ place` that reads back as the nonzero finite number `x`, the nearer one where both neighbours do. -/
def onGrid (tie : Tie) (x : Binary64) (place : Int) : Option Nat :=
  let power := x.exponent - 2
  let unit := Nat.pow 10 (-place).toNat <<< power.toNat
  let cell := Nat.pow 10 place.toNat <<< (-power).toNat
  let value := 4 * x.significand * unit
  let low := (4 * x.significand - x.gapBelow) * unit
  let high := (4 * x.significand + 2) * unit
  let within (point : Nat) : Bool :=
    if x.significand % 2 = 0 then decide (low ≤ point * cell ∧ point * cell ≤ high)
    else decide (low < point * cell ∧ point * cell < high)
  let below := value / cell
  let rest := value % cell
  match within below, within (below + 1) with
  | true, false => some below
  | false, true => some (below + 1)
  | false, false => none
  | true, true =>
    if 2 * rest < cell then some below
    else if cell < 2 * rest then some (below + 1)
    else match tie with
      | .up => some (below + 1)
      | .even => some (below + below % 2)

/-- The first grid with a point, from `place` downwards. -/
def firstGrid (tie : Tie) (x : Binary64) : Nat → Int → Decimal
  | 0, place => ⟨0, place⟩
  | tries + 1, place =>
    match onGrid tie x place with
    | some point => ⟨point, place⟩
    | none => firstGrid tie x tries (place - 1)

/-- The fewest decimal digits that read back as the finite number `x`, its sign aside. -/
def shortest (tie : Tie) (x : Binary64) : Decimal :=
  if x.isZero then ⟨0, 0⟩
  else
    let leading : Int := x.significand.log2 + x.exponent
    firstGrid tie x 24 (Int.fdiv ((leading + 1) * 30103) 100000 + 2)

/-- Reads `digits * 10 ^ exponent` to the nearest number. -/
def ofDecimal (negative : Bool) (value : Decimal) : Binary64 :=
  let size : Int := value.digits.log2
  if value.digits = 0 then ofMagnitude negative 0
  else if 1100 < value.exponent then infinity negative
  else if value.exponent * 3 + size < -1200 then ofMagnitude negative 0
  else ofQuotient negative (value.digits * Nat.pow 10 value.exponent.toNat) (Nat.pow 10 (-value.exponent).toNat)

end Binary64

end LoadGenerator
