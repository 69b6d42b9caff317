import Reconciler.Controller.Failure
import Reconciler.Controller.Finalizer
import Reconciler.Controller.Schema
import Reconciler.Informer.Outlets
import Reconciler.Resource.Set

/-!
# Controllers

A controller routes every object to the one resource set that handles it. An update pass puts the
controller's finalizer on the object and then runs the update pass of each resource in order. A
delete pass runs the delete pass of each resource in order and only then takes the finalizer off, so
a failed clean-up keeps the object and can be run again. A pass that fails is reported as an event
on the object, once.

A pass is written as a program that asks: each set whether it handles the object, and each resource
of the one that does for its pass. `Controller.answering` puts the predicates of the sets and the
passes of the resources in for the answers, and that is what runs.

A controller is driven by what its informer sends: `Controller.handle` is the pass, or the notice,
for one item.

## Main definitions

* `Controller`, `Controller.Config`, `Controller.ofConfig`
* `ControllerRequest`, `controllerInterface` : what a controller asks of its surroundings
* `Turn`, `turns` : what it asks of its sets and resources
* `Controller.matching`, `select`, `createPass`, `deletePass`, `finish`, `passOver` : the parts of a
  pass over an object
* `Controller.asking`, `Controller.answering`, `Controller.reconcile` : a pass that asks, the
  answers, and the pass that runs
* `Controller.handle` : what an item of the informer leads to
-/

namespace Reconciler

/-- What a controller over resources that ask questions of `I` asks of its surroundings. -/
inductive ControllerRequest (I : Interface) (β : Type) where
  /-- A question about stored objects. -/
  | object (q : ObjectRequest β)
  /-- A question of a resource. -/
  | resource (q : I.Request)
  /-- Record a failed pass on an object. -/
  | publish (object : ObjectReference) (failure : Failure)

/-- The surroundings of a controller. -/
def controllerInterface (I : Interface) (β : Type) : Interface where
  Request := ControllerRequest I β
  Reply
    | .object _ => Except Error (Object β)
    | .resource q => I.Reply q
    | .publish .. => Unit

/-- What is asked of the sets and the resources of a controller. -/
inductive Turn (I : Interface) (K P ι : Type) where
  /-- Whether a set handles an object. -/
  | handles (s : ResourceSet I K P ι) (o : K)
  /-- A pass of a resource over an object. -/
  | run (pass : Pass) (r : Resource I K P ι) (o : K)

/-- Sets say yes or no, and a pass has a result. -/
def turns (I : Interface) (K P ι : Type) : Interface where
  Request := Turn I K P ι
  Reply
    | .handles .. => Bool
    | .run .. => Except Error Unit

/-- The same set, with resources that are asked for their passes. -/
def ResourceSet.asked {I : Interface} {K P ι : Type} (s : ResourceSet I K P ι) :
    ResourceSet (turns I K P ι) K P (Resource I K P ι) :=
  ⟨s.handles, s.resources.map .basic⟩

/-- A controller of objects with body `β`. -/
structure Controller (I : Interface) (β P ι : Type) where
  /-- Name. -/
  name : String
  /-- Kind of its objects. -/
  kind : Kind
  /-- The basic resources that its resources refer to. -/
  registry : Registry I (Object β) P ι
  /-- The resource sets. -/
  sets : List (ResourceSet I (Object β) P ι)
  /-- The edits of its finalizer. -/
  finalizers : Finalizers
  /-- The series it records. -/
  metrics : ControllerMetrics
  /-- Tuning of its informer. -/
  informer : Informer.Config
  /-- The definition of its kind, if it brings it into service itself. -/
  schema : Option Definition
  /-- Failed passes are recorded on the object. -/
  publishes : Bool

/-- What a controller is built from. -/
structure Controller.Config (I : Interface) (β P ι : Type) where
  /-- Name. -/
  name : String
  /-- Kind of its objects. -/
  kind : Kind
  /-- The basic resources that its resources refer to. -/
  registry : Registry I (Object β) P ι
  /-- The resource sets; at least one is needed. -/
  sets : List (ResourceSet I (Object β) P ι) := []
  /-- Tuning of its informer; needed. -/
  informer : Option Informer.Config := none
  /-- There is a client for stored objects; needed. -/
  hasClient : Bool := false
  /-- The definition of its kind, if it brings it into service itself. -/
  schema : Option Definition := none
  /-- Failed passes are recorded on the object. -/
  publishes : Bool := false
  /-- The series it records. -/
  metrics : Option ControllerMetrics := none
  /-- Its finalizer. -/
  finalizer : Option String := none
  /-- Policy for editing finalizers. -/
  finalizerPolicy : Option RetryPolicy := none

/-- First part of the names of series that were given no other. -/
def defaultMetricNamespace : String := "operon"

namespace Controller

variable {I : Interface} {β P ι : Type}

/-- Check a configuration; the first fault found is reported. -/
def ofConfig (c : Config I β P ι) : Except Error (Controller I β P ι) :=
  if c.name.isEmpty then .error (.invalidConfig "controller" "name must not be empty")
  else if c.sets.isEmpty then
    .error (.invalidConfig "controller" "at least one resource set is required")
  else
    match c.informer with
    | none => .error (.invalidConfig "controller" "informer must be set")
    | some informer =>
      if !c.hasClient then .error (.invalidConfig "controller" "object client must be set")
      else do
        let finalizers ← Finalizers.ofName (c.finalizer.getD (Finalizers.defaultName c.name))
          (c.finalizerPolicy.getD .standard)
        .ok
          { name := c.name
            kind := c.kind
            registry := c.registry
            sets := c.sets
            finalizers := finalizers
            metrics := c.metrics.getD ⟨globalMeter, defaultMetricNamespace, c.name⟩
            informer := informer
            schema := c.schema
            publishes := c.publishes }

/-- A program of a controller. -/
abbrev Task (I : Interface) (β : Type) (α : Type) := Program (controllerInterface I β) α

/-- Ask the object client. -/
def ofClient {α : Type} (p : Program (objectClient β) α) : Task I β α :=
  p.interpret fun q => .request (I := controllerInterface I β) (.object q)

/-- Ask the resources. -/
def ofResource {α : Type} (p : Program I α) : Task I β α :=
  p.interpret fun q => .request (I := controllerInterface I β) (.resource q)

/-- Record a failed pass on its object. -/
def publish (c : Controller I β P ι) (o : Object β) (f : Failure) : Task I β Unit :=
  if c.publishes then
    .request (I := controllerInterface I β) (.publish (o.reference c.kind) f)
  else .done ()

/-- Ask each set in order whether it handles an object, and keep those that do. -/
def matching (o : Object β) : List (ResourceSet I (Object β) P ι) →
    Program (turns I (Object β) P ι) (List (ResourceSet I (Object β) P ι))
  | [] => .done []
  | s :: sets => .ask (.handles s o) fun yes : Bool =>
    (matching o sets).bind fun found => .done (if yes then s :: found else found)

/-- The one set among those that handle an object, if there is one. Several are an error, which is
reported. -/
def select (c : Controller I β P ι) (pass : Pass) (o : Object β)
    (found : List (ResourceSet I (Object β) P ι)) :
    Task I β (Except Error (Option (ResourceSet I (Object β) P ι))) :=
  match found with
  | [] => .done (.ok none)
  | [s] => .done (.ok (some s))
  | several =>
    let e : Error := .internal "controller"
      (toString several.length ++ " resource sets handle " ++ o.key)
    (Program.log (.objectAmbiguous e)).bind fun _ =>
      (c.publish o (.ofError pass .ambiguousResourceSet e)).bind fun _ => .done (.error e)

/-- The pass of each resource in order, up to the first failure. -/
def runResources (c : Controller I β P ι) (pass : Pass) (s : ResourceSet I (Object β) P ι)
    (o : Object β) : Task I β (Except Error Unit) :=
  Program.sequence (s.resources.map fun r => ofResource (c.registry.ensure pass r o))

/-- Put the finalizer on, then create. -/
def createPass (c : Controller I β P ι) (s : ResourceSet I (Object β) P ι) (o : Object β) :
    Task I β (Except Error Unit) :=
  (ofClient (c.finalizers.ensure o)).andThen fun _ => c.runResources .update s o

/-- Delete, then take the finalizer off. -/
def deletePass (c : Controller I β P ι) (s : ResourceSet I (Object β) P ι) (o : Object β) :
    Task I β (Except Error Unit) :=
  (c.runResources .delete s o).andThen fun _ => ofClient (c.finalizers.remove o)

/-- Run the pass of the set that handles an object. -/
def runPass (c : Controller I β P ι) (pass : Pass) (s : ResourceSet I (Object β) P ι)
    (o : Object β) : Task I β (Except Error Unit) :=
  match pass with
  | .update => c.createPass s o
  | .delete => c.deletePass s o

/-- Measure, log and report how a pass ended. -/
def finish (c : Controller I β P ι) (pass : Pass) (o : Object β) (r : Except Error Unit) :
    Task I β (Except Error Unit) :=
  match r with
  | .ok () =>
    (Program.measure (c.metrics.ended pass true)).bind fun _ =>
      (Program.log (.passSucceeded pass)).bind fun _ => .done (.ok ())
  | .error e =>
    (Program.measure (c.metrics.ended pass false)).bind fun _ =>
      (Program.log (.passFailed pass e)).bind fun _ =>
        (c.publish o (.ofError pass (.ofPass pass) e)).bind fun _ => .done (.error e)

/-- An object that no set handles needs nothing, but is not held back by the finalizer either. -/
def release (c : Controller I β P ι) (pass : Pass) (o : Object β) :
    Task I β (Except Error Unit) :=
  match pass with
  | .update => (Program.log .objectUnhandled).bind fun _ => .done (.ok ())
  | .delete =>
    if o.hasFinalizer c.finalizers.name then ofClient (c.finalizers.remove o) else .done (.ok ())

/-- A pass over an object, once the sets that handle it are found. -/
def passOver (c : Controller I β P ι) (pass : Pass) (o : Object β)
    (found : List (ResourceSet I (Object β) P ι)) : Task I β (Except Error Unit) :=
  (c.select pass o found).andThen fun
    | none => c.release pass o
    | some s =>
      (Program.measure (c.metrics.begun pass)).bind fun _ =>
        (c.runPass pass s o).bind fun r => c.finish pass o r

/-- The same controller, with resources that are asked for their passes. -/
def asked (c : Controller I β P ι) :
    Controller (turns I (Object β) P ι) β P (Resource I (Object β) P ι) :=
  { c with
    registry :=
      { lookup := fun r =>
          { name := c.registry.name r
            ensure := fun pass o => .request (I := turns I (Object β) P ι) (.run pass r o) } }
    sets := c.sets.map ResourceSet.asked }

/-- A pass over an object, within its span. It asks the sets, and the resources of the one that
handles the object. -/
def asking (c : Controller I β P ι) (pass : Pass) (o : Object β) :
    Task (turns I (Object β) P ι) β (Except Error Unit) :=
  Program.inSpan ⟨pass, c.name, o.key⟩ <|
    (ofResource (matching o c.sets)).bind fun found =>
      c.asked.passOver pass o (found.map ResourceSet.asked)

/-- How they answer: the sets by their predicates, and the resources by their passes. Everything
else is passed on. -/
def answering (c : Controller I β P ι) :
    (q : (controllerInterface (turns I (Object β) P ι) β).Request) →
      Program (controllerInterface I β) ((controllerInterface (turns I (Object β) P ι) β).Reply q)
  | .object q => .request (I := controllerInterface I β) (.object q)
  | .resource (.handles s o) => .done (s.handles o)
  | .resource (.run pass r o) => ofResource (c.registry.ensure pass r o)
  | .publish ref f => .request (I := controllerInterface I β) (.publish ref f)

/-- A pass over an object, with the answers put in. -/
def reconcile (c : Controller I β P ι) (pass : Pass) (o : Object β) :
    Task I β (Except Error Unit) :=
  (c.asking pass o).interpret fun q => (c.answering q).inSpan ⟨pass, c.name, o.key⟩

/-- What an item of the informer leads to. The result of a pass has been reported by then. -/
def handle (c : Controller I β P ι) (item : Received β) : Task I β Unit :=
  (Program.measure (c.metrics.received item.stream)).bind fun _ =>
    match item with
    | .deletion o => (c.reconcile .delete o).bind fun _ => .done ()
    | .change o => (c.reconcile .update o).bind fun _ => .done ()
    | .failure e => .log (.informerErrorReceived c.name e)

end Controller

end Reconciler
