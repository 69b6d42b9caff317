import Reconciler.Backoff
import Reconciler.Informer.Cache

/-!
# The informer as a machine

An informer lists the objects of a kind, watches them from the version of the list, and turns what
it learns into a stream of updates, a stream of deletions and a stream of errors.

```
  start ──► listing ──► opening ──► watching ◄──┐
               ▲           │          │  │      │ stream closed: open again
               │  expired  │          │  └──────┘ from the last version seen
               └───────────┴──────────┘
```

After every resync period, while it watches or waits to open a watch again, it lists once more and
hands every listed object out again, one per `rateWait`, between the live events.

The machine does nothing itself. `State.step` takes one `Input` (an answer, an item of the watch, a
timer that went off) and yields the next state and the `Output`s to carry out in order: calls to
make, objects to send, entries to log. Whoever runs it carries all outputs out before the next
input; when the informer is cancelled the outputs that are left are dropped with it.

## Main definitions

* `Informer.Config`, `Informer.Config.check` : tuning, and which tuning is refused
* `Informer.Input`, `Informer.Output`, `Informer.Phase`, `Informer.State` : the machine
* `Informer.State.applyList`, `emitPaced`, `handleEvent` : what is sent, and what is remembered
* `Informer.State.step` : one step
-/

namespace Reconciler

/-- Objects that existed at one version. -/
structure ObjectList (β : Type) where
  /-- The objects. -/
  items : List (Object β)
  /-- The version to watch from. -/
  version : String
deriving DecidableEq, Inhabited, Repr

/-- A change reported by a watch. -/
inductive WatchEvent (β : Type) where
  /-- The object was created. -/
  | added (o : Object β)
  /-- The object was changed. -/
  | modified (o : Object β)
  /-- The object was removed. -/
  | deleted (o : Object β)
  /-- Nothing happened up to this version. -/
  | bookmark (version : String)
deriving DecidableEq, Inhabited, Repr

namespace Informer

/-- Tuning of an informer. -/
structure Config where
  /-- Time between two complete lists. -/
  resync : Duration := .ofSecs 300
  /-- Pause between two objects that a resync hands out again. -/
  rateWait : Duration := .ofSecs 1
  /-- How many items each stream holds. -/
  capacity : Nat := 128
deriving DecidableEq, Inhabited, Repr

/-- Check a configuration. -/
def Config.check (c : Config) : Except Error Config :=
  if c.resync.isZero then
    .error (.invalidConfig "informer" "resync period must be greater than zero")
  else if c.capacity = 0 then
    .error (.invalidConfig "informer" "channel capacity must be greater than zero")
  else .ok c

/-- What a list is for when the machine waits for it between two watches. -/
inductive ListMode where
  /-- The first list: every object is news. -/
  | seed
  /-- After the version expired: what is known is not repeated. -/
  | relist
deriving DecidableEq, Inhabited, Repr

/-- How to go on after a pause. -/
inductive Resume where
  /-- List. -/
  | list (mode : ListMode)
  /-- Open a watch. -/
  | watch (version : String)
deriving DecidableEq, Inhabited, Repr

/-- Waiting for something to happen. -/
inductive Rest where
  /-- A watch is open. -/
  | watching (version : String)
  /-- The pause after a failure lasts until `until`. -/
  | pausing (until_ : Duration) (resume : Resume)
deriving DecidableEq, Inhabited, Repr

/-- Resyncs go on while a watch is open and between two watches. -/
def Rest.resyncs : Rest → Bool
  | .watching _ => true
  | .pausing _ (.watch _) => true
  | .pausing _ (.list _) => false

/-- What the machine waits for. -/
inductive Phase where
  /-- The answer of a list call. -/
  | listing (mode : ListMode)
  /-- The answer of a watch call. -/
  | opening (version : String)
  /-- Timers, and items of the watch. -/
  | resting (rest : Rest)
  /-- The answer of the list call of a resync. -/
  | resyncing (rest : Rest)
  /-- That the outputs are carried out, before a pause begins. -/
  | failing (resume : Resume)
  /-- Nothing more. -/
  | stopped
deriving DecidableEq, Inhabited, Repr

/-- A watch is being read, if only to go on with it later. -/
def Phase.reads : Phase → Bool
  | .resting (.watching _) | .resyncing (.watching _) => true
  | _ => false

/-- What can happen to the machine. -/
inductive Input (β : Type) where
  /-- A list call answered. -/
  | listed (r : Except Error (ObjectList β))
  /-- A watch call answered. -/
  | opened (r : Except Error Unit)
  /-- The watch reported a change. -/
  | event (e : WatchEvent β)
  /-- The watch reported an error. -/
  | failed (e : Error)
  /-- The watch ended. -/
  | closed
  /-- It is time for a resync. -/
  | resyncDue
  /-- It is time to hand out the next object of a resync. -/
  | pacedDue
  /-- The pause is over. -/
  | pauseOver
  /-- The outputs were carried out. -/
  | settled
  /-- The informer was cancelled. -/
  | cancelled

/-- What the machine wants done. -/
inductive Output (β : Type) where
  /-- Log an event. -/
  | log (e : LogEvent)
  /-- Call list. -/
  | list
  /-- Call watch. -/
  | watch (version : String)
  /-- Send an object. -/
  | send (to_ : Route) (o : Object β)
  /-- Send an error. -/
  | report (e : Error)
deriving DecidableEq

/-- State of the machine. -/
structure State (β : Type) where
  /-- Tuning. -/
  config : Config
  /-- What was last observed. -/
  cache : Cache := {}
  /-- Where the pauses after failures have grown to. -/
  backoff : Backoff
  /-- When the next resync is due. -/
  resyncAt : Duration
  /-- Objects of the last resync that are still to be handed out, in order. -/
  paced : List (Object β) := []
  /-- Not before this time is the next of them handed out. -/
  pacedAt : Duration
  /-- What is waited for. -/
  phase : Phase := .listing .seed

/-- When and how a step happens: the time of the run, and what a draw from the backoff depends
on. -/
structure Instant where
  /-- Time since the start of the clock. -/
  time : Duration
  /-- Wall clock and chance. -/
  moment : Moment
deriving Inhabited

/-- Longest nominal pause after a failure. -/
def maxPause : Duration := .ofSecs 30

/-- A timer this much late starts its period anew instead of keeping the schedule. -/
def lateness : Duration := .ofMillis 5

namespace State

variable {β : Type}

/-- The machine as it starts at `now`, and what it wants done first. The first resync has a time
whatever the period is: a period that leads beyond the end of the clock, for which a program panics
here, is not told apart. -/
def start (config : Config) (now : Duration) : State β × List (Output β) :=
  ({ config := config
     backoff := .exponential { initial := .ofMillis 500, maximum := maxPause, elapsed := none }
     resyncAt := now + config.resync
     pacedAt := now },
    [.log (.informerStarted config.resync), .list])

/-- Send a listed object unless it is known and the list only repairs. -/
def observeListed (mode : ListMode) (c : Cache) (o : Object β) : Cache × List (Output β) :=
  match c.observe o, mode with
  | (some route, c'), _ => (c', [.send route o])
  | (none, c'), .relist => (c', [])
  | (none, c'), .seed => (c', [.send o.route o])

/-- Observe the items of a list in order. -/
def observeAll (mode : ListMode) : Cache → List (Object β) → Cache × List (Output β)
  | c, [] => (c, [])
  | c, o :: os =>
    let first := observeListed mode c o
    let rest := observeAll mode first.1 os
    (rest.1, first.2 ++ rest.2)

/-- Forget what a list no longer holds. -/
def forget (c : Cache) (items : List (Object β)) : Cache × List (Output β) :=
  let r := c.retain (items.map Object.key)
  (r.2, if r.1 = 0 then [] else [.log (.objectsForgotten r.1)])

/-- Apply a list that seeds or repairs the cache. -/
def applyList (s : State β) (mode : ListMode) (items : List (Object β)) :
    State β × List (Output β) :=
  let observed := observeAll mode s.cache items
  let kept := forget observed.1 items
  ({ s with cache := kept.1 }, observed.2 ++ kept.2)

/-- Apply the list of a resync: all its objects wait to be handed out, in place of those that still
wait from the resync before. -/
def applyResync (s : State β) (now : Duration) (items : List (Object β)) :
    State β × List (Output β) :=
  let replaced : List (Output β) :=
    if s.paced.isEmpty then [] else [.log (.resyncReplaced s.paced.length)]
  let observed := items.foldl (fun c o => (c.observe o).2) s.cache
  let kept := forget observed items
  ({ s with cache := kept.1, paced := items, pacedAt := now }, replaced ++ kept.2)

/-- Hand out the next object of the last resync, unless a newer version of it or its removal was
observed after it was listed. As in `start`, the time of the next one is not checked against the end
of the clock, which a program that paces by a rate wait close to the longest span runs into. -/
def emitPaced (s : State β) (now : Duration) : State β × List (Output β) :=
  match s.paced with
  | [] => (s, [])
  | o :: rest =>
    if ((s.cache.get? o.key).any fun e => e.version == o.version) then
      ({ s with paced := rest, pacedAt := now + s.config.rateWait }, [.send o.route o])
    else ({ s with paced := rest }, [.log (.resyncSuperseded o.key)])

/-- The version to go on watching from once `e` was seen. -/
def versionAfter (e : WatchEvent β) (version : String) : String :=
  match e with
  | .added o | .modified o | .deleted o => o.metadata.resourceVersion.getD version
  | .bookmark v => v

/-- Observe an object that the watch reports. -/
def handleChange (s : State β) (o : Object β) : State β × List (Output β) :=
  match s.cache.observe o with
  | (some route, c) => ({ s with cache := c }, [.send route o])
  | (none, c) => ({ s with cache := c }, [.log (.replaySkipped o.key)])

/-- Take note of a change that the watch reports, and send what is news. -/
def handleEvent (s : State β) : WatchEvent β → State β × List (Output β)
  | .added o | .modified o => s.handleChange o
  | .deleted o =>
    let r := s.cache.remove o
    ({ s with cache := r.2 }, if r.1 then [.send .delete o] else [])
  | .bookmark _ => (s, [])

/-- What is done about an error that does not expire the version. -/
def reportError (e : Error) : List (Output β) := [.log (.informerError e), .report e]

/-- Go on with a list, because the version expired. -/
def expire (s : State β) (version : String) : State β × List (Output β) :=
  ({ s with phase := .listing .relist }, [.log (.versionExpired version), .list])

/-- Go on by opening a watch. -/
def reopen (s : State β) (version : String) : State β × List (Output β) :=
  ({ s with phase := .opening version }, [.watch version])

/-- Rewind the pauses after failures. -/
def calm (s : State β) (t : Instant) : State β :=
  { s with backoff := s.backoff.reset t.moment.wall }

/-- When the resync after one that was due at `due` and noticed at `now` is due. -/
def nextResync (period due now : Duration) : Duration :=
  if due + lateness < now then now + period else due + period

/-- The machine stops. -/
def stop (s : State β) : State β × List (Output β) :=
  ({ s with phase := .stopped }, [.log .informerStopped])

/-- Begin a pause. -/
def pause (s : State β) (t : Instant) (resume : Resume) : State β × List (Output β) :=
  let r := s.backoff.next t.moment
  ({ s with backoff := r.2, phase := .resting (.pausing (t.time + r.1.getD maxPause) resume) }, [])

/-- A list call answered in phase `listing`. -/
def stepListed (s : State β) (t : Instant) (mode : ListMode) :
    Except Error (ObjectList β) → State β × List (Output β)
  | .ok l =>
    let applied := (s.calm t).applyList mode l.items
    let opened := applied.1.reopen l.version
    (opened.1, .log (.objectsListed l.items.length l.version) :: (applied.2 ++ opened.2))
  | .error e => ({ s with phase := .failing (.list mode) }, reportError e)

/-- A list call answered in phase `resyncing`. -/
def stepResynced (s : State β) (t : Instant) (rest : Rest) :
    Except Error (ObjectList β) → State β × List (Output β)
  | .ok l =>
    let applied := s.applyResync t.time l.items
    ({ applied.1 with phase := .resting rest }, applied.2)
  | .error e => ({ s with phase := .resting rest }, reportError e)

/-- A watch call answered in phase `opening`. -/
def stepOpened (s : State β) (version : String) : Except Error Unit → State β × List (Output β)
  | .ok () => ({ s with phase := .resting (.watching version) }, [.log (.watchOpened version)])
  | .error e =>
    if e.isGone then s.expire version
    else ({ s with phase := .failing (.watch version) }, reportError e)

/-- A timer went off in phase `resting`. -/
def stepTimer (s : State β) (t : Instant) (rest : Rest) : Input β → State β × List (Output β)
  | .resyncDue =>
    ({ s with
        resyncAt := nextResync s.config.resync s.resyncAt t.time
        phase := .resyncing rest },
      [.log (.resyncing s.cache.size), .list])
  | .pacedDue => s.emitPaced t.time
  | .pauseOver =>
    match rest with
    | .pausing _ (.list mode) => ({ s with phase := .listing mode }, [.list])
    | .pausing _ (.watch version) => s.reopen version
    | .watching _ => (s, [])
  | _ => (s, [])

/-- The watch yielded an item in phase `resting (watching version)`. -/
def stepWatch (s : State β) (t : Instant) (version : String) : Input β → State β × List (Output β)
  | .event e =>
    let handled := (s.calm t).handleEvent e
    ({ handled.1 with phase := .resting (.watching (versionAfter e version)) }, handled.2)
  | .failed e => if e.isGone then s.expire version else (s, reportError e)
  | .closed =>
    let opened := s.reopen version
    (opened.1, .log (.watchClosed version) :: opened.2)
  | i => s.stepTimer t (.watching version) i

/-- One step. An input that the phase does not wait for changes nothing. -/
def step (s : State β) (t : Instant) : Input β → State β × List (Output β)
  | .cancelled =>
    match s.phase with
    | .stopped => (s, [])
    | _ => s.stop
  | .listed r =>
    match s.phase with
    | .listing mode => s.stepListed t mode r
    | .resyncing rest => s.stepResynced t rest r
    | _ => (s, [])
  | .opened r =>
    match s.phase with
    | .opening version => s.stepOpened version r
    | _ => (s, [])
  | .settled =>
    match s.phase with
    | .failing resume => s.pause t resume
    | _ => (s, [])
  | i =>
    match s.phase with
    | .resting (.watching version) => s.stepWatch t version i
    | .resting rest => s.stepTimer t rest i
    | _ => (s, [])

/-- The timers that are running, with what happens when they go off. -/
def timers (s : State β) : List (Duration × Input β) :=
  match s.phase with
  | .resting rest =>
    (match rest with
      | .pausing until_ _ => [(until_, .pauseOver)]
      | .watching _ => []) ++
    (if rest.resyncs then
      (s.resyncAt, .resyncDue) :: (if s.paced.isEmpty then [] else [(s.pacedAt, .pacedDue)])
    else [])
  | _ => []

end State

end Informer

end Reconciler
