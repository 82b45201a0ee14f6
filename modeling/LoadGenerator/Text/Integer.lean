import LoadGenerator.Text.Digits

/-!
# Whole numbers in settings and arguments

An optional sign and ASCII digits, nothing else, within a range.
-/

namespace LoadGenerator.Text

/-- A nonempty run of digits as a number. -/
def digitsValue? (cs : List Char) : Option Nat :=
  if cs.isEmpty || !cs.all isDigit then none else some (number cs)

def integer? (text : String) : Option Int :=
  match text.toList with
  | '-' :: rest => (digitsValue? rest).map fun n => -(n : Int)
  | '+' :: rest => (digitsValue? rest).map Int.ofNat
  | rest => (digitsValue? rest).map Int.ofNat

/-- A natural number below `2 ^ 64` with an optional plus sign. -/
def unsigned64? (text : String) : Option UInt64 :=
  let digits := match text.toList with
    | '+' :: rest => rest
    | rest => rest
  (digitsValue? digits).bind fun n => if n < UInt64.size then some (UInt64.ofNat n) else none

def signed32? (text : String) : Option Int32 :=
  (integer? text).bind fun n => if Int32.minValue.toInt ≤ n ∧ n ≤ Int32.maxValue.toInt then some (Int32.ofInt n) else none

end LoadGenerator.Text
