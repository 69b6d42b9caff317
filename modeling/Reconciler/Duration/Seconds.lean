import Reconciler.Binary64
import Reconciler.Duration

/-!
# Durations as binary64 seconds

Backoff intervals grow by a binary64 factor, so a duration is read as a number of seconds, scaled,
and read back. Reading back is exact up to the nearest nanosecond: the bits of the number are taken
apart into `significand · 2 ^ exponent`, the product with `10 ^ 9` is formed in whole numbers, and a
half nanosecond goes to the even neighbour. Numbers that no span can stand for (negative ones, those
that are not finite, and those of `2 ^ 64` seconds or more) are refused.
-/

namespace Reconciler

/-- The magnitude in billionths, rounded to the nearest, a tie to the even neighbour. -/
def Binary64.billionths (x : Binary64) : Nat :=
  if 0 ≤ x.exponent then (x.significand <<< x.exponent.toNat) * 1000000000
  else roundQuotient (x.significand * 1000000000) (1 <<< (-x.exponent).toNat)

namespace Duration

/-- Spans are shorter than `2 ^ 64` seconds. -/
def bound : Duration := ofSecs UInt64.size

/-- The span in seconds: whole seconds plus the rest over `10 ^ 9`, each step rounded once. -/
def toSeconds (d : Duration) : Float :=
  d.secs.toUInt64.toFloat + d.subsecNanos.toUInt64.toFloat / 1000000000.0

/-- The span nearest to `x` seconds, if `x` is a number of seconds that a span can have. -/
def ofSeconds? (x : Float) : Option Duration := do
  let parts ← Binary64.ofBits? x.toBits
  if parts.negative ∧ parts.significand ≠ 0 then none
  else
    let d : Duration := ⟨parts.billionths⟩
    if d < bound then some d else none

end Duration

end Reconciler
