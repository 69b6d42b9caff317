import Reconciler.Duration

/-!
# Virtual time

A system that waits for timers is run on a virtual clock: time jumps from one timer to the next, and
between two jumps the system does whatever there is to do. `Timed.elapse` fires every timer due up
to and including a target time, in order of time.
-/

namespace Reconciler.Simulation

/-- The earliest of those times that are there. -/
def earliest? (times : List (Option Duration)) : Option Duration :=
  (times.filterMap id).foldl
    (fun least t =>
      match least with
      | none => some t
      | some l => some (l.atMost t)) none

/-- How a system of states `σ` reacts to time. -/
structure Timed (σ : Type) where
  /-- Do whatever there is to do at a time. -/
  settle : Duration → σ → σ
  /-- The next time at which a timer goes off. -/
  nextTimer? : σ → Option Duration

/-- Let time pass up to `target`, over at most `fuel` timers. -/
def Timed.elapse {σ : Type} (sys : Timed σ) (target : Duration) : (fuel : Nat) → σ → σ
  | 0, s => s
  | fuel + 1, s =>
    match sys.nextTimer? s with
    | some t => if t ≤ target then sys.elapse target fuel (sys.settle t s) else s
    | none => s

end Reconciler.Simulation
