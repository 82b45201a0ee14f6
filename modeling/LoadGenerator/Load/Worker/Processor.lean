/-!
# Spinning a processor

The loop of a processor worker counts its iterations modulo `2 ^ 32` and looks at its token every 1024th time. Besides, it adds one to an accumulator, which starts again past a billion, so that it stays among the whole numbers that binary64 holds exactly.
-/

namespace LoadGenerator.Load.Processor

/-- What the loop holds between two iterations. -/
structure Spin where
  count : UInt32
  accumulator : Nat
  deriving DecidableEq

def pollInterval : UInt32 := 1024

def accumulatorLimit : Nat := 1000000000

def Spin.start : Spin := ⟨0, 0⟩

def Spin.polls (spin : Spin) : Bool := (spin.count + 1) % pollInterval == 0

/-- One iteration; nothing is left of the loop once it sees its token cancelled. -/
def Spin.next (spin : Spin) (cancelled : Bool) : Option Spin :=
  if spin.polls && cancelled then none
  else
    let sum := spin.accumulator + 1
    some ⟨spin.count + 1, if accumulatorLimit < sum then 0 else sum⟩

/-- The loop after a number of iterations; `cancelled k` tells whether the token is cancelled at iteration `k`, from zero. -/
def after (cancelled : Nat → Bool) : Nat → Option Spin
  | 0 => some .start
  | n + 1 => (after cancelled n).bind fun spin => spin.next (cancelled n)

end LoadGenerator.Load.Processor
