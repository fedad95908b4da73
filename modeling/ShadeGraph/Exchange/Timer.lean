import ShadeGraph.Number.Scalar

/-!
# Waiting

A delay is written down or waited for. A clock refuses delays below zero, and tells those apart that
lie outside of the range in which it counts.
-/

namespace ShadeGraph

/-- Why a delay cannot be waited for. -/
inductive DelayError where
  | negative
  /-- The delay is no number of nanoseconds in 64 bits. -/
  | range
deriving DecidableEq, Repr

def DelayError.message : DelayError → String
  | negative => "sleep length must be non-negative"
  | range => "timestamp too large to convert to C _PyTime_t"

/-- How delays are waited for. -/
inductive Timer where
  /-- Delays are written down. -/
  | record
  /-- Time passes, and it does not go back. -/
  | clock
deriving DecidableEq, Repr

/-- The least number of nanoseconds that a clock counts with. -/
def Timer.leastNanoseconds {α : Type} [Scalar α] : α := -9223372036854775808.0

def Timer.refuses? {α : Type} [Scalar α] (delay : α) : Timer → Option DelayError
  | record => none
  | clock =>
    if Scalar.lt delay 0.0 then
      some (if Scalar.lt (delay * 1e9) leastNanoseconds then .range else .negative)
    else none

end ShadeGraph
