import Reconciler.Backoff

/-!
# Surveying the spread of delays

Draws from an exponential policy next to the draws of a copy without spread: whether each delay lies
within its range around the nominal one, and whether any differs from it.
-/

namespace Reconciler.Simulation

/-- A delay and its nominal value, or nothing once the policy is exhausted. -/
abbrev Draw := Option (Duration × Duration)

/-- Numbers between 0 and 1 that vary from one draw to the next. -/
def variedChance (i : Nat) : Float := ((i * 618034 + 250000) % 1000000).toFloat / 1000000.0

/-- Draw `n` times, with the nominal value of each draw. -/
def drawAll (e : Exponential) (i : Nat) : (n : Nat) → List Draw × Exponential
  | 0 => ([], e)
  | n + 1 =>
    let nominal := ((e.withFactor 0.0).next ⟨.zero, 0.5⟩).1
    let drawn := e.next ⟨.zero, variedChance i⟩
    let rest := drawAll drawn.2 (i + 1) n
    ((drawn.1.bind fun d => nominal.map fun m => (d, m)) :: rest.1, rest.2)

/-- The delay lies within the spread around its nominal value, give or take two nanoseconds. -/
def isInRange (factor : Float) (delay nominal : Duration) : Bool :=
  let d := delay.nanos.toFloat
  let m := nominal.nanos.toFloat
  m * (1.0 - factor) - 2.0 ≤ d && d ≤ m * (1.0 + factor) + 2.0

/-- The result of a survey. -/
structure Survey where
  /-- For each draw whether it was in range; nothing once the policy was exhausted. -/
  inRange : List (Option Bool)
  /-- Some delay differed from its nominal value. -/
  varied : Bool
  /-- The draw after these, without spread. -/
  after : Option Duration

/-- Survey `n` draws. -/
def survey (e : Exponential) (n : Nat) : Survey :=
  let r := drawAll e 0 n
  { inRange := r.1.map fun d => d.map fun x => isInRange e.factor x.1 x.2
    varied := r.1.any fun d => d.any fun x => x.1 != x.2
    after := ((r.2.withFactor 0.0).next ⟨.zero, 0.5⟩).1 }

end Reconciler.Simulation
