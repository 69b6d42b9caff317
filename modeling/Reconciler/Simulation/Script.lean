import Reconciler.Retry

/-!
# Operations that fail by script

An operation whose calls fail with the errors of a script and succeed after it. A successful call
answers its number, counted from 0. `notice` lets a test of a retry driver record its notifications.
-/

namespace Reconciler.Simulation

/-- Questions to a scripted operation. -/
inductive ScriptRequest where
  /-- Call the operation. -/
  | call
  /-- Record that a failed call will be repeated after a delay. -/
  | notice (e : Error) (delay : Duration)

/-- A scripted operation as something that can be asked. -/
def scriptInterface : Interface where
  Request := ScriptRequest
  Reply
    | .call => Except Error Nat
    | .notice .. => Unit

/-- The script and what happened so far. -/
structure ScriptRun where
  /-- For each of the next calls the error it fails with, if any. -/
  script : List (Option Error)
  /-- How many calls were made. -/
  calls : Nat := 0
  /-- The notices, newest first. -/
  notices : List (Error × Duration) := []
  /-- Signals, newest first. -/
  signals : List Signal := []

namespace ScriptRun

/-- Answer a question. -/
def answer : (q : ScriptRequest) → ScriptRun → scriptInterface.Reply q × ScriptRun
  | .call, s =>
    let s' := { s with script := s.script.drop 1, calls := s.calls + 1 }
    match s.script.head?.join with
    | some e => (.error e, s')
    | none => (.ok s.calls, s')
  | .notice e delay, s => ((), { s with notices := (e, delay) :: s.notices })

/-- What runs against a script: delays are nominal and the wall clock stands still. -/
def surroundings : Program.Surroundings scriptInterface ScriptRun where
  answer := answer
  moment s := (⟨.zero, 0.5⟩, s)
  observe e s := { s with signals := e :: s.signals }

end ScriptRun

/-- Call the operation. -/
def scriptedCall : Program scriptInterface (Except Error Nat) :=
  .request (I := scriptInterface) .call

/-- Retry the operation and record the notices. -/
def retryNoticed (policy : RetryPolicy) : Program scriptInterface (Except Error Nat) :=
  retry policy (fun _ e delay => .request (I := scriptInterface) (.notice e delay)) scriptedCall

end Reconciler.Simulation
