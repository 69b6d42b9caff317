import Reconciler.Simulation.Site

/-!
# Driving an informer

A `Consumer` drives an informer by commands and reports after each of them what there is to see: the
calls made, the items received, which streams were found closed, and what was logged. Unless it
holds back, it drains the streams after every command.
-/

namespace Reconciler.Simulation

/-- An informer under a consumer. -/
structure Consumer (β : Type) where
  /-- Tuning of the informer. -/
  config : Informer.Config
  /-- Where it runs. -/
  site : Site β := {}
  /-- The streams are left alone. -/
  holding : Bool := false
  /-- Streams that a receive found closed. -/
  closed : List Stream := []

/-- What a consumer can be told. -/
inductive ConsumerCommand (β : Type) where
  /-- Change what the API does. -/
  | api (c : ApiCommand β)
  /-- Start the informer, in place of the one that was started before. -/
  | start
  /-- Let time pass. -/
  | advance (d : Duration)
  /-- Cancel the informer. -/
  | cancel
  /-- Leave the streams alone, or drain them again. -/
  | hold (on : Bool)
  /-- Take at most `n` items of a stream. -/
  | receive (stream : Stream) (n : Nat)
  /-- Drop the receiver of a stream. -/
  | abandon (stream : Stream)

/-- What there is to see after a command. -/
structure ConsumerReport (β : Type) where
  /-- Calls to the API. -/
  calls : List ApiCall
  /-- Items received. -/
  items : List (Received β)
  /-- The informer was started. -/
  started : Bool
  /-- The informer ended. -/
  finished : Bool
  /-- The streams found closed so far. -/
  closed : List Stream
  /-- Events logged. -/
  logged : List LogEvent

namespace Consumer

variable {β : Type}

/-- A receive on each of these streams came away empty: those that nothing can follow are closed. -/
def noteClosed (c : Consumer β) (streams : List Stream) : Consumer β :=
  let found := streams.filter fun s =>
    c.site.isOver && c.site.outlets?.any fun out => out.isReceived s
  { c with closed := c.closed ++ found }

/-- Carry out a command. -/
def obey (c : Consumer β) : ConsumerCommand β → List (Received β) × Consumer β
  | .api a => ([], { c with site := { c.site with api := c.site.api.apply a } })
  | .start => ([], { c with site := c.site.start c.config, closed := [] })
  | .advance d => ([], { c with site := c.site.elapse d })
  | .cancel => ([], { c with site := c.site.cancel })
  | .hold on => ([], { c with holding := on })
  | .receive stream n =>
    let r := c.site.receive stream n
    let c := { c with site := r.2 }
    (r.1, if r.1.length < n then c.noteClosed [stream] else c)
  | .abandon stream =>
    match c.site.outlets? with
    | some out => ([], { c with site := c.site.setOutlets (out.abandon stream) })
    | none => ([], c)

/-- Carry out a command, let everything settle, and report. -/
def step (c : Consumer β) (command : ConsumerCommand β) : ConsumerReport β × Consumer β :=
  let obeyed := c.obey command
  let c := { obeyed.2 with site := obeyed.2.site.settle }
  let drained := if c.holding then ([], c.site) else c.site.drain patience
  let c := { c with site := drained.2 }
  let c := if c.holding then c else c.noteClosed [.update, .delete, .error]
  ({ calls := c.site.api.calls.reverse
     items := obeyed.1 ++ drained.1
     started := c.site.session?.isSome
     finished := c.site.isOver
     closed := c.closed
     logged := c.site.logged.reverse },
    { c with site := { c.site with api := { c.site.api with calls := [] }, logged := [] } })

end Consumer

end Reconciler.Simulation
