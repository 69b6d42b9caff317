import Reconciler.Simulation.Session

/-!
# An informer, its API and the clock

A `Site` is where an informer runs: the scripted API, the informer once it was started, the clock,
and the switch that cancels it. Consumers either leave the streams alone or drain them.

An informer that is started in place of another one takes over its consumers, not its work: the
other one goes on until it is cancelled, but nobody receives what it sends.

Whoever has something to do goes on until it waits. If several have, their turn is that of their
timers (`Session.turn`); without timers the one that was started last comes first, so it is already
at work when those before it find out that nobody listens to them.
-/

namespace Reconciler.Simulation

/-- Nominal delays and a wall clock that stands still. -/
def stillMoment : Moment := ⟨.zero, 0.5⟩

/-- How many steps of one party are looked at before anything else gets its turn. -/
def patience : Nat := 100000

/-- An informer, if it was started, and what it runs against. -/
structure Site (β : Type) where
  /-- Time since the start of the clock. -/
  now : Duration := .zero
  /-- What the informer talks to. -/
  api : WatchApi β := {}
  /-- The informers that were started, the last one first. -/
  sessions : List (Session β) := []
  /-- The steps that informers took. -/
  steps : Nat := 0
  /-- The run was cancelled. -/
  cancelled : Bool := false
  /-- What the informer logged, newest first. -/
  logged : List LogEvent := []

namespace Site

variable {β : Type}

/-- The informer that was started last. -/
def session? (s : Site β) : Option (Session β) := s.sessions.head?

/-- Start the informer. -/
def start (s : Site β) (config : Informer.Config) : Site β :=
  { s with sessions := Session.start config s.now :: s.sessions.map Session.abandon }

/-- The instant of a step. -/
def instant (s : Site β) : Informer.Instant := ⟨s.now, stillMoment⟩

/-- One small step of an informer; nothing while it waits. -/
def stepSession? (s : Site β) (session : Session β) : Option (Session β × Site β) :=
  let steps := s.steps + 1
  (Bench.step? ⟨session, s.api, s.logged⟩ s.instant s.cancelled).map fun b =>
    (b.session.setTimers s.now steps, { s with api := b.api, logged := b.logged, steps := steps })

/-- The turn of an informer; nothing while it waits. -/
def turnOf? (s : Site β) (session : Session β) : Option Nat :=
  (s.stepSession? session).map fun _ => session.turn s.now

/-- The next turn; nothing while all informers wait. -/
def turn? (s : Site β) : Option Nat := (s.sessions.filterMap s.turnOf?).min?

/-- One small step of the first of several informers that has its turn. -/
def stepAt? (s : Site β) (turn : Nat) : List (Session β) → Option (List (Session β) × Site β)
  | [] => none
  | session :: rest =>
    if s.turnOf? session = some turn then
      (s.stepSession? session).map fun r => (r.1 :: rest, r.2)
    else (s.stepAt? turn rest).map fun r => (session :: r.1, r.2)

/-- One small step of the informer that has its turn; nothing while all of them wait. -/
def step? (s : Site β) : Option (Site β) :=
  s.turn?.bind fun turn =>
    (s.stepAt? turn s.sessions).map fun r => { r.2 with sessions := r.1 }

/-- Small steps until all informers wait, at most `fuel` of them. -/
def settleWithin : (fuel : Nat) → Site β → Site β
  | 0, s => s
  | fuel + 1, s =>
    match s.step? with
    | some s => s.settleWithin fuel
    | none => s

/-- Do whatever there is to do now. -/
def settle (s : Site β) : Site β := s.settleWithin patience

/-- The next time at which a timer goes off. -/
def nextTimer? (s : Site β) : Option Duration :=
  earliest? (s.sessions.map Session.nextTimer?)

/-- How a site reacts to time. -/
def timed : Timed (Site β) where
  settle t s := { s with now := t }.settle
  nextTimer? := nextTimer?

/-- Let time pass. -/
def elapse (s : Site β) (d : Duration) : Site β :=
  let target := (s.now + d).ceilMillis
  { timed.elapse target patience s with now := target }.settle

/-- Cancel the run. -/
def cancel (s : Site β) : Site β := { s with cancelled := true }

/-- The streams, once the informer was started. -/
def outlets? (s : Site β) : Option (Outlets β) := s.session?.map (·.outlets)

/-- Put other streams in place. -/
def setOutlets (s : Site β) (out : Outlets β) : Site β :=
  { s with sessions := s.sessions.modifyHead fun session => { session with outlets := out } }

/-- The informer was started and has ended. -/
def isOver (s : Site β) : Bool := s.session?.any (·.isOver)

/-- Whether the informer, if it was started, still runs. -/
def liveness? (s : Site β) : Option Liveness := s.session?.map fun session => session.liveness

/-- Take at most `n` items of one stream that are there now. -/
def receive (s : Site β) (stream : Stream) : (n : Nat) → List (Received β) × Site β
  | 0 => ([], s)
  | n + 1 =>
    match s.outlets?.bind fun out => out.takeFrom? stream with
    | some (item, out) =>
      let r := (s.setOutlets out).receive stream n
      (item :: r.1, r.2)
    | none => ([], s)

/-- One round of draining: whatever the informer does, then one item of each stream. -/
def drainRound (s : Site β) : List (Received β) × Site β :=
  let s := s.settle
  let updates := s.receive .update 1
  let deletes := updates.2.receive .delete 1
  let errors := deletes.2.receive .error 1
  (updates.1 ++ deletes.1 ++ errors.1, errors.2)

/-- Drain the streams until they stay empty. -/
def drain : (fuel : Nat) → Site β → List (Received β) × Site β
  | 0, s => ([], s)
  | fuel + 1, s =>
    match s.drainRound with
    | ([], s) => ([], s)
    | (items, s) =>
      let r := s.drain fuel
      (items ++ r.1, r.2)

end Site

end Reconciler.Simulation
