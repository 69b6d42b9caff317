/-!
# Spans of time

A `Duration` counts whole nanoseconds. The clock of a run starts at zero, so a point in time is the
duration since that start and no second type is needed for it.

The wire form of a duration is the pair of its whole seconds and the nanoseconds left over.

## No longest span

A span can have any number of nanoseconds, and the sum of two spans is always a span. A program
keeps the seconds of a span in 64 bits, and panics where a point in time plus a span is past the
last point that its clock can show. Nothing here panics: what is said about points in time is about
runs in which every sum is on the clock. The sums that depend on the tuning of an informer are
those in `Informer.State.start`, `Informer.State.nextResync` and `Informer.State.emitPaced`, so the
limit shows only for a resync period or a rate wait of a length close to it.
-/

namespace Reconciler

/-- A span of time in nanoseconds. -/
structure Duration where
  /-- How many nanoseconds the span lasts. -/
  nanos : Nat
deriving DecidableEq, Inhabited, Repr

namespace Duration

/-- The empty span, and the start of the clock. -/
def zero : Duration := ⟨0⟩

/-- The span of `s` seconds and `n` nanoseconds. -/
def ofParts (s n : Nat) : Duration := ⟨s * 1000000000 + n⟩

/-- The span of `s` seconds. -/
def ofSecs (s : Nat) : Duration := ofParts s 0

/-- The span of `m` milliseconds. -/
def ofMillis (m : Nat) : Duration := ⟨m * 1000000⟩

/-- Whole seconds in the span. -/
def secs (d : Duration) : Nat := d.nanos / 1000000000

/-- Nanoseconds left after the whole seconds. -/
def subsecNanos (d : Duration) : Nat := d.nanos % 1000000000

/-- Whole milliseconds in the span. -/
def millis (d : Duration) : Nat := d.nanos / 1000000

/-- The span has no length. -/
def isZero (d : Duration) : Bool := d.nanos == 0

instance : Add Duration := ⟨fun a b => ⟨a.nanos + b.nanos⟩⟩

instance : Sub Duration := ⟨fun a b => ⟨a.nanos - b.nanos⟩⟩

instance : LE Duration := ⟨fun a b => a.nanos ≤ b.nanos⟩

instance : LT Duration := ⟨fun a b => a.nanos < b.nanos⟩

instance (a b : Duration) : Decidable (a ≤ b) := inferInstanceAs (Decidable (a.nanos ≤ b.nanos))

instance (a b : Duration) : Decidable (a < b) := inferInstanceAs (Decidable (a.nanos < b.nanos))

/-- The shorter of two spans. -/
def atMost (d bound : Duration) : Duration := if d ≤ bound then d else bound

/-- The first whole millisecond that is not before `d`: timers fire on whole milliseconds. -/
def ceilMillis (d : Duration) : Duration := ofMillis ((d.nanos + 999999) / 1000000)

theorem le_ceilMillis (d : Duration) : d ≤ d.ceilMillis := by
  show d.nanos ≤ (d.nanos + 999999) / 1000000 * 1000000
  omega

theorem atMost_le (d bound : Duration) : d.atMost bound ≤ bound := by
  unfold atMost
  split
  · assumption
  · exact Nat.le_refl _

end Duration

end Reconciler
