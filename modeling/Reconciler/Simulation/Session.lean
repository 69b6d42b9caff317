import Reconciler.Informer.Outlets
import Reconciler.Simulation.Clock
import Reconciler.Simulation.WatchApi

/-!
# An informer at work

A `Session` carries out what the informer machine wants: it calls the scripted API, sends into the
three channels, and feeds back what happens. It goes one small step at a time (`Bench.step?`), so a
full channel, a call that does not return and a cancellation take effect exactly where they occur.

Timers that go off at one time do so in the order in which they were set. A session therefore
remembers when it set its timers (`Session.setTimers`), and its place among several sessions is that
of the first timer that goes off (`Session.turn`).
-/

namespace Reconciler.Simulation

open Informer (Output Input)

/-- A call that has not answered. -/
inductive Awaiting where
  /-- A list call that answers at a time. -/
  | listAt (time : Duration)
  /-- A call that never answers. -/
  | nothing
deriving DecidableEq, Repr

/-- Whether the informer still runs. -/
inductive Liveness where
  /-- It runs. -/
  | running
  /-- It ended. -/
  | finished
  /-- It was taken down by a call. -/
  | crashed
deriving DecidableEq, Repr

/-- A timer that was set. -/
structure Alarm where
  /-- When it goes off. -/
  time : Duration
  /-- It stays set whatever else happens. -/
  lasting : Bool
  /-- The number of the step at which it was set. -/
  step : Nat
deriving DecidableEq, Repr

/-- A running informer. -/
structure Session (β : Type) where
  /-- The machine. -/
  machine : Informer.State β
  /-- What it wants done, in order. -/
  pending : List (Output β)
  /-- The call in progress. -/
  awaiting : Option Awaiting := none
  /-- The watch stream that is read; nothing if it is one of those that stay silent. -/
  stream : Option Nat := none
  /-- The channels to the consumer. -/
  outlets : Outlets β
  /-- Whether it still runs. -/
  liveness : Liveness := .running
  /-- The timers that were set. -/
  alarms : List Alarm := []

/-- A session, its API, and the events logged so far, newest first. -/
structure Bench (β : Type) where
  /-- The informer. -/
  session : Session β
  /-- What it talks to. -/
  api : WatchApi β
  /-- What it logged. -/
  logged : List LogEvent := []

namespace Session

variable {β : Type}

/-- Start an informer. -/
def start (config : Informer.Config) (now : Duration) : Session β :=
  let r := Informer.State.start config now
  { machine := r.1, pending := r.2, outlets := .ofCapacity config.capacity }

/-- Nobody listens to the informer any more. -/
def abandon (s : Session β) : Session β :=
  { s with outlets := ((s.outlets.abandon .update).abandon .delete).abandon .error }

/-- The informer ended. -/
def isOver (s : Session β) : Bool := s.liveness != .running

/-- The times that the session waits for, and whether they are those of a resync. -/
def timers (s : Session β) : List (Duration × Bool) :=
  match s.awaiting with
  | some (.listAt time) => [(time, false)]
  | some .nothing => []
  | none =>
    if s.pending.isEmpty then
      s.machine.timers.map fun
        | (time, .resyncDue) => (time, true)
        | (time, _) => (time, false)
    else []

/-- The next time at which a timer goes off. -/
def nextTimer? (s : Session β) : Option Duration :=
  if s.isOver then none else earliest? (s.timers.map fun timer => some timer.1.ceilMillis)

/-- Set the timers after a step with a number. The timer of a resync stays set until the next resync
is due at another time; all others are set anew after every step. What is due at once needs no
timer. -/
def setTimers (s : Session β) (now : Duration) (step : Nat) : Session β :=
  let kept := s.alarms.filter fun alarm =>
    alarm.lasting && alarm.time == s.machine.resyncAt && decide (now < alarm.time.ceilMillis)
  let fresh := s.timers.filter fun timer =>
    decide (now < timer.1.ceilMillis) && !(timer.2 && !kept.isEmpty)
  { s with alarms := kept ++ fresh.map fun timer => ⟨timer.1, timer.2, step⟩ }

/-- The number of the step at which the first of the timers that go off now was set; zero if none of
them goes off. -/
def turn (s : Session β) (now : Duration) : Nat :=
  (s.alarms.filterMap fun alarm =>
    if alarm.time.ceilMillis = now then some alarm.step else none).min?.getD 0

end Session

namespace Bench

variable {β : Type}

/-- Feed the machine. What it wanted done before is done or void, and a watch that it no longer
reads is left. -/
def feed (b : Bench β) (t : Informer.Instant) (i : Input β) : Bench β :=
  let before := b.session
  let r := before.machine.step t i
  let leaves := before.machine.phase.reads && !r.1.phase.reads
  { b with
    session :=
      { before with
        machine := r.1
        pending := r.2
        awaiting := none
        stream := if leaves then none else before.stream }
    api := if leaves then b.api.leave before.stream else b.api }

/-- Log an event. -/
def log (b : Bench β) (e : LogEvent) : Bench β := { b with logged := e :: b.logged }

/-- The output at the head of the list was carried out. -/
def carried (b : Bench β) (rest : List (Output β)) : Bench β :=
  { b with session := { b.session with pending := rest } }

/-- An item was offered to a channel; nothing while there is no room for it. -/
def offered? (b : Bench β) (rest : List (Output β)) (discarded : List LogEvent) :
    Offer (Outlets β) → Option (Bench β)
  | .sent out => some { b with session := { b.session with pending := rest, outlets := out } }
  | .full => none
  | .discarded => some (discarded.foldl log (b.carried rest))

/-- Make a list call. -/
def callList (b : Bench β) (t : Informer.Instant) : Bench β :=
  let r := b.api.list
  let b := { b with api := r.2, session := { b.session with pending := [] } }
  match r.1 with
  | .now a => b.feed t (.listed a)
  | .later d => { b with session := { b.session with awaiting := some (.listAt (t.time + d)) } }
  | .never => { b with session := { b.session with awaiting := some .nothing } }
  | .crash =>
    { b with
      session := { b.session with liveness := .crashed }
      api := b.api.leave b.session.stream }

/-- Make a watch call. -/
def callWatch (b : Bench β) (t : Informer.Instant) (version : String) : Bench β :=
  let r := b.api.watch version
  let b := { b with api := r.2, session := { b.session with pending := [] } }
  match r.1 with
  | .now (.ok n) => { b with session := { b.session with stream := n } }.feed t (.opened (.ok ()))
  | .now (.error e) => b.feed t (.opened (.error e))
  | _ => { b with session := { b.session with awaiting := some .nothing } }

/-- The first timer of the machine that went off. -/
def dueTimer? (b : Bench β) (t : Informer.Instant) : Option (Input β) :=
  (b.session.machine.timers.find? fun x => decide (x.1.ceilMillis ≤ t.time)).map (·.2)

/-- What the machine waits for and what has happened. -/
def ready? (b : Bench β) (t : Informer.Instant) : Option (Bench β) :=
  match b.session.machine.phase with
  | .stopped => some { b with session := { b.session with liveness := .finished } }
  | .failing _ => some (b.feed t .settled)
  | .resting rest =>
    match b.dueTimer? t with
    | some i => some (b.feed t i)
    | none =>
      match rest with
      | .watching _ =>
        (b.api.next? b.session.stream).map fun r => { b with api := r.2 }.feed t r.1
      | .pausing .. => none
  | _ => none

/-- One small step; nothing while the informer waits. -/
def step? (b : Bench β) (t : Informer.Instant) (cancelled : Bool) : Option (Bench β) :=
  let orCancelled (r : Option (Bench β)) : Option (Bench β) :=
    match r with
    | some b => some b
    | none => if cancelled then some (b.feed t .cancelled) else none
  if b.session.isOver then none
  else
    match b.session.awaiting with
    | some a =>
      if cancelled then some (b.feed t .cancelled)
      else
        match a with
        | .listAt time =>
          if time.ceilMillis ≤ t.time then
            let r := b.api.listAnswer
            some ({ b with api := r.2 }.feed t (.listed r.1))
          else none
        | .nothing => none
    | none =>
      match b.session.pending with
      | .log e :: rest => some ((b.carried rest).log e)
      | .list :: _ => some (if cancelled then b.feed t .cancelled else b.callList t)
      | .watch v :: _ => some (if cancelled then b.feed t .cancelled else b.callWatch t v)
      | .send route o :: rest =>
        orCancelled (b.offered? rest [.deliveryDiscarded o.key] (b.session.outlets.send o route))
      | .report e :: rest => orCancelled (b.offered? rest [] (b.session.outlets.report e))
      | [] =>
        if cancelled && b.session.machine.phase != .stopped then some (b.feed t .cancelled)
        else b.ready? t

end Bench

end Reconciler.Simulation
