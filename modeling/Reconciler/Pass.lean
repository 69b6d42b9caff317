/-!
# Passes, operations and event streams

The closed vocabularies that logs and metrics are labelled with: the two passes over an object, the
calls a decorator sees, and the three streams of an informer. Each has one text form.
-/

namespace Reconciler

/-- The two ways to reconcile an object. -/
inductive Pass where
  /-- Create or update what the object asks for. -/
  | update
  /-- Remove what the object caused to exist. -/
  | delete
deriving DecidableEq, Inhabited, Repr

/-- Label of a pass. -/
def Pass.label : Pass → String
  | .update => "update"
  | .delete => "delete"

/-- The calls that decorators see: seven steps of a CRUD resource and the two whole passes. -/
inductive Operation where
  /-- Read what exists. -/
  | getCurrentState
  /-- Compute what should exist. -/
  | getDesiredState
  /-- Compute the changes of an update pass. -/
  | newUpdatePatch
  /-- Compute the changes of a delete pass. -/
  | newDeletePatch
  /-- Apply a create change. -/
  | applyCreateChange
  /-- Apply a delete change. -/
  | applyDeleteChange
  /-- Apply an update change. -/
  | applyUpdateChange
  /-- Run a whole update pass. -/
  | ensureCreated
  /-- Run a whole delete pass. -/
  | ensureDeleted
deriving DecidableEq, Inhabited, Repr

/-- Label of an operation. -/
def Operation.label : Operation → String
  | .getCurrentState => "get_current_state"
  | .getDesiredState => "get_desired_state"
  | .newUpdatePatch => "new_update_patch"
  | .newDeletePatch => "new_delete_patch"
  | .applyCreateChange => "apply_create_change"
  | .applyDeleteChange => "apply_delete_change"
  | .applyUpdateChange => "apply_update_change"
  | .ensureCreated => "ensure_created"
  | .ensureDeleted => "ensure_deleted"

/-- The operation that runs a whole pass. -/
def Pass.operation : Pass → Operation
  | .update => .ensureCreated
  | .delete => .ensureDeleted

/-- The three streams an informer feeds. -/
inductive Stream where
  /-- Objects that were created or changed. -/
  | update
  /-- Objects that are being deleted or are gone. -/
  | delete
  /-- Failures of the list and watch calls. -/
  | error
deriving DecidableEq, Inhabited, Repr

/-- Label of a stream. -/
def Stream.label : Stream → String
  | .update => "update"
  | .delete => "delete"
  | .error => "error"

end Reconciler
