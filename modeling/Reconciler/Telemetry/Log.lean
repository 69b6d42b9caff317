import Reconciler.Duration
import Reconciler.Error
import Reconciler.Pass

/-!
# Log events

Everything the library logs is one case of `LogEvent`, which carries the values and not their text.
Level, wording and fields of a case are functions of it, so a statement about what is logged speaks
about cases and a reader of the log sees what `LogEvent.level`, `LogEvent.message` and
`LogEvent.fields` say. A `LogEntry` is an event together with the pass it was logged in, if any.
-/

namespace Reconciler

/-- Severity of an event. -/
inductive Level where
  /-- Steps of interest only to someone following one object. -/
  | trace
  /-- Normal steps. -/
  | debug
  /-- Milestones. -/
  | info
  /-- Failures that are being dealt with. -/
  | warn
  /-- Failures that are given up on. -/
  | error
deriving DecidableEq, Inhabited, Repr

/-- Upper-case name of a level. -/
def Level.label : Level → String
  | .trace => "TRACE"
  | .debug => "DEBUG"
  | .info => "INFO"
  | .warn => "WARN"
  | .error => "ERROR"

/-- Value of a structured field. -/
inductive Field where
  /-- A text. -/
  | text (s : String)
  /-- A count. -/
  | number (n : Nat)
  /-- A truth value. -/
  | flag (b : Bool)
deriving DecidableEq, Inhabited, Repr

/-- What the library logs. Objects are named by their key, controllers, resources and definitions by
their name. -/
inductive LogEvent where
  /-- A retried operation failed and will be tried again after `delay`. -/
  | operationRetried (operation : String) (attempt : UInt32) (error : Error) (delay : Duration)
  /-- A retried operation failed for the last time. -/
  | operationAbandoned (operation : String) (error : Error)
  /-- A call of a resource failed and will be tried again after `delay`. -/
  | callRetried (resource : String) (operation : Operation) (attempt : UInt32) (error : Error)
      (delay : Duration)
  /-- A call of a resource began. -/
  | callStarted (resource : String) (operation : Operation)
  /-- A call of a resource succeeded. -/
  | callFinished (resource : String) (operation : Operation)
  /-- A call of a resource failed. -/
  | callFailed (resource : String) (operation : Operation) (error : Error)
  /-- The informer loop began. -/
  | informerStarted (resync : Duration)
  /-- The informer loop ended. -/
  | informerStopped
  /-- A list or watch call failed, or a watch reported an error. -/
  | informerError (error : Error)
  /-- A list that seeds or repairs the cache arrived. -/
  | objectsListed (items : Nat) (version : String)
  /-- A watch was opened. -/
  | watchOpened (version : String)
  /-- A watch ended and is opened again. -/
  | watchClosed (version : String)
  /-- The watch cannot go on from its version, so the objects are listed again. -/
  | versionExpired (version : String)
  /-- A periodic list begins. -/
  | resyncing (objects : Nat)
  /-- A periodic list arrived before the previous one was emitted completely. -/
  | resyncReplaced (skipped : Nat)
  /-- Objects missing from a list were dropped from the cache. -/
  | objectsForgotten (dropped : Nat)
  /-- A listed object changed before its turn came. -/
  | resyncSuperseded (object : String)
  /-- A watch repeated a version that was seen before. -/
  | replaySkipped (object : String)
  /-- Nobody receives the stream that the object belongs to. -/
  | deliveryDiscarded (object : String)
  /-- The finalizer was written. -/
  | finalizerAdded (object finalizer : String)
  /-- The finalizer was taken off. -/
  | finalizerRemoved (object finalizer : String)
  /-- The object to take the finalizer off no longer exists. -/
  | objectGone (object : String)
  /-- The definition was created. -/
  | definitionCreated (definition : String)
  /-- The definition existed before. -/
  | definitionExists (definition : String)
  /-- The definition is served. -/
  | definitionEstablished (definition : String)
  /-- The definition is not served in time and is deleted again. -/
  | definitionRollback (definition : String) (error : Error)
  /-- Deleting the definition again failed. -/
  | definitionRollbackFailed (definition : String) (error : Error)
  /-- The controller began to consume its informer. -/
  | controllerStarted (controller finalizer : String)
  /-- The controller ended. -/
  | controllerStopped (controller : String)
  /-- The informer of the controller ended by a crash. -/
  | informerCrashed (controller detail : String)
  /-- The controller received an informer error. -/
  | informerErrorReceived (controller : String) (error : Error)
  /-- No resource set handles the object. -/
  | objectUnhandled
  /-- Several resource sets handle the object. -/
  | objectAmbiguous (error : Error)
  /-- A pass succeeded. -/
  | passSucceeded (pass : Pass)
  /-- A pass failed. -/
  | passFailed (pass : Pass) (error : Error)
  /-- The event about a failed pass was refused. -/
  | failureUnrecorded (object : String) (pass : Pass) (reason resource detail : String)
deriving DecidableEq, Inhabited, Repr

namespace LogEvent

/-- Severity of an event. -/
def level : LogEvent → Level
  | operationRetried .. | callRetried .. | informerError _ | definitionRollback ..
  | informerCrashed .. | failureUnrecorded .. => .warn
  | operationAbandoned .. | callFailed .. | definitionRollbackFailed .. | objectAmbiguous _
  | passFailed .. => .error
  | informerErrorReceived _ e => if e.isRetryable then .warn else .error
  | informerStarted _ | informerStopped | finalizerAdded .. | finalizerRemoved ..
  | definitionCreated _ | definitionEstablished _ | controllerStarted .. | controllerStopped _ =>
    .info
  | watchOpened _ | resyncSuperseded _ | replaySkipped _ | deliveryDiscarded _ => .trace
  | callStarted .. | callFinished .. | objectsListed .. | watchClosed _ | versionExpired _
  | resyncing _ | resyncReplaced _ | objectsForgotten _ | objectGone _ | definitionExists _
  | objectUnhandled | passSucceeded _ => .debug

/-- Wording of an event. -/
def message : LogEvent → String
  | operationRetried .. | callRetried .. => "Operation failed, retrying"
  | operationAbandoned .. => "Operation failed, giving up"
  | callStarted .. => "Operation started"
  | callFinished .. => "Operation finished"
  | callFailed .. => "Operation failed"
  | informerStarted _ => "Informer started"
  | informerStopped => "Informer stopped"
  | informerError _ | informerErrorReceived .. => "Informer error"
  | objectsListed .. => "Listed objects"
  | watchOpened _ => "Watch opened"
  | watchClosed _ => "Watch closed, reopening"
  | versionExpired _ => "Resource version expired, re-listing"
  | resyncing _ => "Resyncing"
  | resyncReplaced _ => "Previous resync still pending, replaced"
  | objectsForgotten _ => "Forgot objects missing from list"
  | resyncSuperseded _ => "Skipping superseded resync item"
  | replaySkipped _ => "Skipping replayed event"
  | deliveryDiscarded _ => "Receiver dropped, event discarded"
  | finalizerAdded .. => "Added finalizer"
  | finalizerRemoved .. => "Removed finalizer"
  | objectGone _ => "Object already gone"
  | definitionCreated _ => "Created CRD"
  | definitionExists _ => "CRD already exists"
  | definitionEstablished _ => "CRD established"
  | definitionRollback .. => "CRD not established, rolling back"
  | definitionRollbackFailed .. => "Failed to roll back CRD"
  | controllerStarted .. => "Controller started"
  | controllerStopped _ => "Controller stopped"
  | informerCrashed .. => "Informer task ended abnormally"
  | objectUnhandled => "No resource set handles object, skipping"
  | objectAmbiguous _ => "Ambiguous resource set, skipping object"
  | passSucceeded _ => "Reconciled"
  | passFailed .. => "Reconciliation failed"
  | failureUnrecorded .. => "Could not record reconcile failure"

/-- A delay is logged in whole milliseconds of a 64-bit counter. -/
def delayMillis (d : Duration) : Nat := d.millis % UInt64.size

/-- Structured fields of an event. -/
def fields : LogEvent → List (String × Field)
  | operationRetried operation attempt error delay =>
    [("operation", .text operation), ("attempt", .number attempt.toNat),
      ("error", .text error.message), ("delay_ms", .number (delayMillis delay))]
  | operationAbandoned operation error =>
    [("operation", .text operation), ("error", .text error.message)]
  | callRetried resource operation attempt error delay =>
    [("resource", .text resource), ("operation", .text operation.label),
      ("attempt", .number attempt.toNat), ("error", .text error.message),
      ("delay_ms", .number (delayMillis delay))]
  | callStarted resource operation | callFinished resource operation =>
    [("resource", .text resource), ("operation", .text operation.label)]
  | callFailed resource operation error =>
    [("resource", .text resource), ("operation", .text operation.label),
      ("error", .text error.message)]
  | informerStarted resync => [("resync_secs", .number resync.secs)]
  | informerStopped => []
  | informerError error => [("error", .text error.message)]
  | objectsListed items version =>
    [("items", .number items), ("resource_version", .text version)]
  | watchOpened version | watchClosed version | versionExpired version =>
    [("resource_version", .text version)]
  | resyncing objects => [("objects", .number objects)]
  | resyncReplaced skipped => [("skipped", .number skipped)]
  | objectsForgotten dropped => [("dropped", .number dropped)]
  | resyncSuperseded object | replaySkipped object | deliveryDiscarded object | objectGone object =>
    [("object", .text object)]
  | finalizerAdded object finalizer | finalizerRemoved object finalizer =>
    [("object", .text object), ("finalizer", .text finalizer)]
  | definitionCreated definition | definitionExists definition | definitionEstablished definition =>
    [("crd", .text definition)]
  | definitionRollback definition error | definitionRollbackFailed definition error =>
    [("crd", .text definition), ("error", .text error.message)]
  | controllerStarted controller finalizer =>
    [("controller", .text controller), ("finalizer", .text finalizer)]
  | controllerStopped controller => [("controller", .text controller)]
  | informerCrashed controller detail =>
    [("controller", .text controller), ("error", .text detail)]
  | informerErrorReceived controller error =>
    [("controller", .text controller), ("error", .text error.message)]
  | objectUnhandled => []
  | objectAmbiguous error => [("error", .text error.message)]
  | passSucceeded pass => [("kind", .text pass.label)]
  | passFailed pass error =>
    [("kind", .text pass.label), ("resource", .text (error.resourceName?.getD "")),
      ("retryable", .flag error.isRetryable), ("error", .text error.message)]
  | failureUnrecorded object pass reason resource detail =>
    [("object", .text object), ("kind", .text pass.label), ("reason", .text reason),
      ("resource", .text resource), ("error", .text detail)]

end LogEvent

/-- The pass over an object that an event was logged in. -/
structure Span where
  /-- Which pass. -/
  pass : Pass
  /-- Name of the controller. -/
  controller : String
  /-- Key of the object. -/
  object : String
deriving DecidableEq, Inhabited, Repr

/-- Name of a span. -/
def Span.name (s : Span) : String :=
  match s.pass with
  | .update => "reconcile_update"
  | .delete => "reconcile_delete"

/-- An event and the pass it was logged in. -/
structure LogEntry where
  /-- What was logged. -/
  event : LogEvent
  /-- The pass it belongs to, if any. -/
  span : Option Span := none
deriving DecidableEq, Inhabited, Repr

end Reconciler
