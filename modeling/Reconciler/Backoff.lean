import Reconciler.Duration.Seconds
import Reconciler.Program

/-!
# Backoff policies

A `Backoff` is a policy together with the position reached in it: `Backoff.next` draws the next
delay, or nothing once the policy is exhausted, and `Backoff.reset` goes back to the start. Policies
are values, so two cursors over one policy never influence each other.

Five kinds of policies come with the library, and anyone can add another. `Backoff.other` is such a
policy, told by what it yields and by nothing else, so what is said of every `Backoff` is said of
every policy that there can be. `Backoff.ofCursor` is the one whose cursors are of a given type.

An exponential policy keeps a nominal interval that grows with every draw and is held at a maximum;
what it hands out is the nominal interval spread by chance around itself.
-/

namespace Reconciler

/-- An exponential policy and its position. -/
structure Exponential where
  /-- First nominal interval. -/
  initial : Duration
  /-- Bound that growth stops at. -/
  maximum : Duration
  /-- How long after its start the policy is exhausted, if ever. -/
  elapsed : Option Duration
  /-- Growth per draw, at least 1. -/
  multiplier : Float := 1.5
  /-- Half width of the spread relative to the interval, between 0 and 1. -/
  factor : Float := 0.5
  /-- Nominal interval of the next draw. -/
  current : Duration := initial
  /-- Reading of the wall clock at the start. -/
  started : Duration := .zero
deriving Inhabited, Repr

namespace Exponential

/-- Bound of the nominal interval in the default policy. -/
def defaultMaximum : Duration := .ofSecs 10

/-- How long the default policy lasts. -/
def defaultElapsed : Duration := .ofSecs 120

/-- The default policy: half a second at first, at most ten seconds, for two minutes. -/
def standard : Exponential where
  initial := .ofMillis 500
  maximum := defaultMaximum
  elapsed := some defaultElapsed

/-- Set the growth; intervals never shrink, so what is below 1 or no number counts as 1. -/
def withMultiplier (e : Exponential) (m : Float) : Exponential :=
  { e with multiplier := if m.isNaN then 1.0 else if m < 1.0 then 1.0 else m }

/-- Set the spread, held between 0 and 1; what is no number counts as 0. -/
def withFactor (e : Exponential) (f : Float) : Exponential :=
  { e with
    factor := if f.isNaN then 0.0 else if f < 0.0 then 0.0 else if 1.0 < f then 1.0 else f }

/-- The nominal interval after `d`, if a span can have it. -/
def grow? (e : Exponential) (d : Duration) : Option Duration :=
  Duration.ofSeconds? (d.toSeconds * e.multiplier)

/-- Spread `d` around itself: `chance` runs over the range from `1 - factor` to `1 + factor`. -/
def spread (e : Exponential) (chance : Float) (d : Duration) : Duration :=
  if e.factor ≤ 0.0 then d
  else
    let low := 1.0 - e.factor
    let high := 1.0 + e.factor
    (Duration.ofSeconds? (d.toSeconds * (low + chance * (high - low)))).getD d

/-- The policy lasts only so long, and that time is over. -/
def isExpired (e : Exponential) (wall : Duration) : Bool :=
  match e.elapsed with
  | none => false
  | some limit => limit ≤ wall - e.started

/-- The position after a draw. -/
def advance (e : Exponential) : Exponential :=
  { e with
    current :=
      match e.grow? e.current with
      | some d => d.atMost e.maximum
      | none => e.maximum }

/-- Draw the next delay. -/
def next (e : Exponential) (m : Moment) : Option Duration × Exponential :=
  if e.isExpired m.wall then (none, e)
  else (some (e.spread m.chance e.current), e.advance)

/-- Go back to the start. -/
def reset (e : Exponential) (wall : Duration) : Exponential :=
  { e with current := e.initial, started := wall }

end Exponential

/-- A backoff policy and the position reached in it. -/
inductive Backoff where
  /-- Growing intervals. -/
  | exponential (e : Exponential)
  /-- The same interval for ever. -/
  | constant (interval : Duration)
  /-- No wait, for ever. -/
  | zero
  /-- Exhausted from the start. -/
  | stop
  /-- At most `limit` draws of `inner`, of which `attempts` were made. -/
  | capped (inner : Backoff) (limit attempts : Nat)
  /-- Any policy. `yields` says what the latest of some draws yields, told the reading of the wall
  clock when the cursor was put at its start and the moments of the draws since then, latest
  first. -/
  | other (yields : Duration → List Moment → Option Duration) (started : Duration)
      (drawn : List Moment)
deriving Inhabited

namespace Backoff

/-- Draw the next delay, or nothing once the policy is exhausted. -/
def next (m : Moment) : Backoff → Option Duration × Backoff
  | exponential e =>
    let r := e.next m
    (r.1, exponential r.2)
  | constant interval => (some interval, constant interval)
  | zero => (some .zero, zero)
  | stop => (none, stop)
  | capped inner limit attempts =>
    if limit ≤ attempts then (none, capped inner limit attempts)
    else
      let r := inner.next m
      (r.1, capped r.2 limit (attempts + 1))
  | other yields started drawn => (yields started (m :: drawn), other yields started (m :: drawn))

/-- Go back to the start. -/
def reset (wall : Duration) : Backoff → Backoff
  | exponential e => exponential (e.reset wall)
  | constant interval => constant interval
  | zero => zero
  | stop => stop
  | capped inner limit _ => capped (inner.reset wall) limit 0
  | other yields _ _ => other yields wall []

/-- The default policy. -/
def standard : Backoff := exponential .standard

/-- What the latest of some draws yields, if `fresh` makes a cursor at a reading of the wall clock
and `draw` says what a draw yields and which cursor it leaves. -/
def yieldsOf {σ : Type} (fresh : Duration → σ) (draw : Moment → σ → Option Duration × σ) :
    Duration → List Moment → Option Duration
  | _, [] => none
  | started, m :: before =>
    (draw m (before.foldr (fun m s => (draw m s).2) (fresh started))).1

/-- The policy whose cursors are made and drawn from like this. -/
def ofCursor {σ : Type} (fresh : Duration → σ) (draw : Moment → σ → Option Duration × σ) :
    Backoff :=
  other (yieldsOf fresh draw) .zero []

end Backoff

/-- A policy to retry under. Every retried call starts from a reset copy of the prototype, and looks
ahead over at most `horizon` attempts: a call that is still failing then is left unfinished. Which
cursor a call gets may depend on the wall clock, and for an `other` policy in any way, but on no
other call: nothing is told of cursors that share what they count. -/
structure RetryPolicy where
  /-- The policy, at any position. -/
  prototype : Backoff
  /-- How many attempts are looked at. -/
  horizon : Nat := 100000
deriving Inhabited

namespace RetryPolicy

/-- A fresh cursor over the policy. -/
def cursor (p : RetryPolicy) (wall : Duration) : Backoff := p.prototype.reset wall

/-- The default policy. -/
def standard : RetryPolicy := ⟨.standard, 100000⟩

end RetryPolicy

end Reconciler
