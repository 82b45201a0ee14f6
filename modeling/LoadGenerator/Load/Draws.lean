import LoadGenerator.Binary64

/-!
# Draws for fault injection

A run fails before any work with the probability of its error rate. The decision takes one uniform draw, and none where the rate alone decides.
-/

namespace LoadGenerator.Load

/-- A stream of draws and the number of those already taken. -/
structure Draws where
  stream : Nat → Binary64
  taken : Nat

namespace Draws

def always (value : Binary64) : Draws := ⟨fun _ => value, 0⟩

/-- The values in turn, over and over; the position counts modulo `2 ^ 64`, and no values at all stand for zeros. -/
def cycle (values : List Binary64) : Draws :=
  ⟨fun k => (values[k % UInt64.size % values.length]?).getD Binary64.zero, 0⟩

def next (draws : Draws) : Binary64 × Draws := (draws.stream draws.taken, { draws with taken := draws.taken + 1 })

end Draws

/-- Decides whether a run fails. Rates up to zero never fail and rates from one on always do, both without a draw. -/
def fails (rate : Binary64) (draws : Draws) : Bool × Draws :=
  if rate ≤ Binary64.zero then (false, draws)
  else if Binary64.one ≤ rate then (true, draws)
  else
    let (value, rest) := draws.next
    (decide (value < rate), rest)

end LoadGenerator.Load
