import Reconciler.Resource.Crud
import Reconciler.Retry

/-!
# Decorators

A decorator adds behaviour around a call without changing what the call is asked or what it answers:
it logs the call, measures it, or repeats it under a backoff policy. `Decorator.around` is the one
place where that behaviour is defined; decorating the seven calls of a CRUD resource
(`Ops.decorate`) and decorating a whole pass both go through it.
-/

namespace Reconciler

/-- Behaviour that can be added around calls. -/
inductive Decorator where
  /-- Log when a call starts, finishes and fails. -/
  | logging
  /-- Repeat a failing call, each time from a fresh cursor over the policy. -/
  | retry (policy : RetryPolicy)
  /-- Count and time the calls, and count those that fail. -/
  | metrics (handle : OperationMetrics)
deriving Inhabited

namespace Decorator

variable {I : Interface} {α : Type}

/-- The instruments that a decorator registers when it is made. -/
def registrations : Decorator → List Registration
  | .metrics handle => handle.registrations
  | _ => []

/-- Whether a result is a success. -/
def succeeded : Except Error α → Bool
  | .ok _ => true
  | .error _ => false

/-- What is logged at the end of a call. -/
def outcome (resource : String) (op : Operation) : Except Error α → LogEvent
  | .ok _ => .callFinished resource op
  | .error e => .callFailed resource op e

/-- Add the behaviour around `body`, a call of `op` on `resource`. -/
def around (d : Decorator) (resource : String) (op : Operation)
    (body : Program I (Except Error α)) : Program I (Except Error α) :=
  match d with
  | .logging =>
    (Program.log (.callStarted resource op)).bind fun _ =>
      body.bind fun r => (Program.log (outcome resource op r)).bind fun _ => .done r
  | .retry policy =>
    Reconciler.retry policy
      (fun attempt e delay => .log (.callRetried resource op attempt e delay)) body
  | .metrics handle =>
    (Program.measure (handle.begun resource op.label)).bind fun _ =>
      body.bind fun r =>
        (Program.measure (handle.ended resource op.label (succeeded r))).bind fun _ => .done r

end Decorator

/-- Add a decorator's behaviour around every call. -/
def Ops.decorate {I : Interface} {K S C : Type} (d : Decorator) (ops : Ops I K S C) :
    Ops I K S C where
  name := ops.name
  perform c k := d.around ops.name c.operation (ops.perform c k)

end Reconciler
