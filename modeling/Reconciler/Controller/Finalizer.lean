import Reconciler.Controller.Client
import Reconciler.Retry

/-!
# Finalizers

A controller puts its finalizer on an object before it causes any effect for it, and takes it off
only after all effects are gone; the server keeps a deleted object around until then.

Both edits read the latest copy and replace it. A conflict means that someone wrote in between; the
edit then starts over from a fresh copy, under the backoff policy.
-/

namespace Reconciler

/-- The edits of one finalizer. -/
structure Finalizers where
  /-- The finalizer. -/
  name : String
  /-- Policy for conflicts and other failures that may pass. -/
  policy : RetryPolicy
deriving Inhabited

namespace Finalizers

/-- What the default finalizers begin with. -/
def domain : String := "operon.dev"

/-- The default finalizer of a controller. -/
def defaultName (controller : String) : String := domain ++ "/" ++ controller

/-- Check the name of a finalizer. -/
def ofName (name : String) (policy : RetryPolicy) : Except Error Finalizers :=
  if name.isEmpty then .error (.invalidConfig "finalizer" "name must not be empty")
  else .ok ⟨name, policy⟩

variable {β : Type}

/-- Read the latest copy of the object that `o` is a copy of. -/
def read (o : Object β) : Program (objectClient β) (Except Error (Object β)) :=
  .request (I := objectClient β) (.get o.metadata.namespaceName o.name)

/-- Replace the stored copy. -/
def write (o : Object β) : Program (objectClient β) (Except Error (Object β)) :=
  .request (I := objectClient β) (.replace o)

/-- One attempt to add the finalizer: an object that has it, or is being deleted, stays as it is. -/
def tryEnsure (f : Finalizers) (o : Object β) : Program (objectClient β) (Except Error Unit) :=
  (read o).andThen fun latest =>
    if latest.hasFinalizer f.name || latest.isDeleting then .done (.ok ())
    else
      (write (latest.addFinalizer f.name)).andThen fun _ =>
        (Program.log (.finalizerAdded latest.key f.name)).bind fun _ => .done (.ok ())

/-- Make sure the object carries the finalizer. A copy that shows it settles the matter without a
read. -/
def ensure (f : Finalizers) (o : Object β) : Program (objectClient β) (Except Error Unit) :=
  if o.hasFinalizer f.name then .done (.ok ())
  else retryLogged f.policy "add_finalizer" (f.tryEnsure o)

/-- One attempt to take the finalizer off: an object without it stays as it is. -/
def tryRemove (f : Finalizers) (o : Object β) : Program (objectClient β) (Except Error Unit) :=
  (read o).andThen fun latest =>
    if latest.hasFinalizer f.name then
      (write (latest.dropFinalizer f.name)).andThen fun _ =>
        (Program.log (.finalizerRemoved latest.key f.name)).bind fun _ => .done (.ok ())
    else .done (.ok ())

/-- Make sure the object does not carry the finalizer; an object that is gone does not. -/
def remove (f : Finalizers) (o : Object β) : Program (objectClient β) (Except Error Unit) :=
  (retryLogged f.policy "remove_finalizer" (f.tryRemove o)).bind fun
    | .ok u => .done (.ok u)
    | .error e =>
      if e.isNotFound then (Program.log (.objectGone o.key)).bind fun _ => .done (.ok ())
      else .done (.error e)

end Finalizers

end Reconciler
