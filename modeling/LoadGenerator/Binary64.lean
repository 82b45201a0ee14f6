/-!
# Binary64 numbers

A number is its sign and its magnitude, the remaining 63 bits of the interchange format read as one natural number. Magnitudes order the finite numbers, then infinity, then the values that are not numbers, so every comparison is one comparison of integers. Rounding is to nearest with ties to even, on exact quotients of natural numbers.
-/

namespace LoadGenerator

/-- A double of the IEEE 754 interchange format: the sign bit and the other 63 bits. -/
structure Binary64 where
  negative : Bool
  magnitude : Nat
  magnitude_lt : magnitude < 0x8000000000000000
  deriving DecidableEq

namespace Binary64

/-- The magnitude of infinity; larger magnitudes are not numbers. -/
def topMagnitude : Nat := 0x7ff0000000000000

/-- The bit in front of the 52 bits of the fraction. -/
def leadingBit : Nat := 0x10000000000000

/-- The number with this sign and magnitude, magnitudes past infinity taken as infinity. -/
def ofMagnitude (negative : Bool) (magnitude : Nat) : Binary64 :=
  if h : magnitude < topMagnitude then
    ⟨negative, magnitude, Nat.lt_trans h (by decide)⟩
  else
    ⟨negative, topMagnitude, by decide⟩

def zero : Binary64 := ⟨false, 0, by decide⟩

def one : Binary64 := ⟨false, 0x3ff0000000000000, by decide⟩

def infinity (negative : Bool) : Binary64 := ofMagnitude negative topMagnitude

def nan : Binary64 := ⟨false, 0x7ff8000000000000, by decide⟩

instance : Inhabited Binary64 := ⟨zero⟩

def isNan (x : Binary64) : Bool := decide (topMagnitude < x.magnitude)

def isFinite (x : Binary64) : Bool := decide (x.magnitude < topMagnitude)

def isZero (x : Binary64) : Bool := x.magnitude == 0

def neg (x : Binary64) : Binary64 := ⟨!x.negative, x.magnitude, x.magnitude_lt⟩

/-- Position on the number line, with the two zeros at the same place. -/
def rank (x : Binary64) : Int := if x.negative then -(x.magnitude : Int) else x.magnitude

/-- A value that is not a number is not below or equal to anything. -/
instance : LE Binary64 := ⟨fun x y => x.isNan = false ∧ y.isNan = false ∧ x.rank ≤ y.rank⟩

instance : LT Binary64 := ⟨fun x y => x.isNan = false ∧ y.isNan = false ∧ x.rank < y.rank⟩

instance (x y : Binary64) : Decidable (x ≤ y) :=
  inferInstanceAs (Decidable (x.isNan = false ∧ y.isNan = false ∧ x.rank ≤ y.rank))

instance (x y : Binary64) : Decidable (x < y) :=
  inferInstanceAs (Decidable (x.isNan = false ∧ y.isNan = false ∧ x.rank < y.rank))

/-- The integer `m` of the value `m * 2 ^ q` of a finite number. -/
def significand (x : Binary64) : Nat :=
  if x.magnitude < leadingBit then x.magnitude else x.magnitude % leadingBit + leadingBit

/-- The exponent `q` of the value `m * 2 ^ q` of a finite number. -/
def exponent (x : Binary64) : Int := (max (x.magnitude / leadingBit) 1 : Nat) - 1075

/-- Divides to the nearest natural number, a half going to the even neighbour. -/
def divideToEven (numerator denominator : Nat) : Nat :=
  let quotient := numerator / denominator
  let twice := 2 * (numerator % denominator)
  if twice < denominator then quotient
  else if denominator < twice then quotient + 1
  else quotient + quotient % 2

/-- The exponent of the last place that a positive quotient keeps: 53 significant bits, or fewer below the normal range. -/
def lastPlace (numerator denominator : Nat) : Int :=
  let estimate : Int := (numerator.log2 : Int) - denominator.log2
  let leading :=
    if denominator <<< estimate.toNat ≤ numerator <<< (-estimate).toNat then estimate else estimate - 1
  max (-1074) (leading - 52)

/-- The quotient of two natural numbers rounded to nearest; the denominator is positive. -/
def ofQuotient (negative : Bool) (numerator denominator : Nat) : Binary64 :=
  if numerator = 0 then ofMagnitude negative 0
  else
    let place := lastPlace numerator denominator
    let kept := divideToEven (numerator <<< (-place).toNat) (denominator <<< place.toNat)
    ofMagnitude negative ((place + 1074).toNat * leadingBit + kept)

def ofNat (n : Nat) : Binary64 := ofQuotient false n 1

def ofInt (n : Int) : Binary64 := ofQuotient (decide (n < 0)) n.natAbs 1

def mul (x y : Binary64) : Binary64 :=
  let power := x.exponent + y.exponent
  ofQuotient (x.negative != y.negative) ((x.significand * y.significand) <<< power.toNat) (1 <<< (-power).toNat)

/-- The rounded quotient of two finite numbers, the second one not zero. -/
def div (x y : Binary64) : Binary64 :=
  let power := x.exponent - y.exponent
  ofQuotient (x.negative != y.negative) (x.significand <<< power.toNat) (y.significand <<< (-power).toNat)

end Binary64

end LoadGenerator
