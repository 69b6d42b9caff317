import Reconciler.Controller.Basic

/-!
# The stages of a booted controller

Booting a controller first brings the definition of its kind into service, if it has one. Only this
can make booting fail, and then the informer is not even started. From then on the controller
serves: it takes one item of its informer after the other and handles each to the end, whatever
comes of it. Once it is cancelled it leaves, but never in the middle of an item; it waits for its
informer to end, and is done.

Whoever runs a controller runs the programs that the stages hold, starts the informer when it is
time to serve, and asks `Controller.attend` what to do between two items.

## Main definitions

* `Stage` : how far a controller has come
* `Controller.prepare` : what comes before the informer starts
* `Stage.afterPreparing`, `Controller.attend` : how it goes on
-/

namespace Reconciler

/-- How far a booted controller has come. -/
inductive Stage (I : Interface) (β : Type) where
  /-- The definition is being brought into service. -/
  | preparing (rest : Program definitions (Except Error Unit))
  /-- It waits for an item. -/
  | serving
  /-- It handles an item. -/
  | handling (item : Received β) (rest : Controller.Task I β Unit)
  /-- It has left, and waits for its informer to end. -/
  | closing
  /-- Booting has ended. -/
  | ended (r : Except Error Unit)

/-- The stage after the preparation. -/
def Stage.afterPreparing {I : Interface} {β : Type} : Except Error Unit → Stage I β
  | .ok () => .serving
  | .error e => .ended (.error e)

namespace Controller

variable {I : Interface} {β P ι : Type}

/-- Bring the definition into service, if there is one. -/
def prepare (c : Controller I β P ι) : Program definitions (Except Error Unit) :=
  match c.schema with
  | some d => d.ensureEstablished
  | none => .done (.ok ())

/-- What a controller does that waits for an item: the stage and the streams afterwards, or nothing
if it goes on waiting. It leaves as soon as it is cancelled, even if there are items. -/
def attend (c : Controller I β P ι) (cancelled : Bool) (out : Outlets β) :
    Option (Stage I β × Outlets β) :=
  if cancelled then some (.closing, out)
  else out.take?.map fun r => (.handling r.1 (c.handle r.1), r.2)

/-- What is logged when it begins to serve. -/
def greeting (c : Controller I β P ι) : LogEvent :=
  .controllerStarted c.name c.finalizers.name

/-- What is logged at the end, after an informer that came to its end or was taken down. -/
def farewell (c : Controller I β P ι) (crash : Option String) : List LogEvent :=
  (crash.map fun text => .informerCrashed c.name text).toList ++ [.controllerStopped c.name]

end Controller

end Reconciler
