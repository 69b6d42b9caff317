import Reconciler.Cluster.Objects
import Reconciler.Controller.Failure

/-!
# Recording events on the server

A failed pass is recorded as an event next to the object it is about. Events about objects of the
cluster go to the default namespace. An event that the server refuses is logged and dropped, since a
report of a failure must not become one.
-/

namespace Reconciler.Cluster

open Text (Json)

/-- Who reports. -/
structure Recorder where
  /-- Name of the controller. -/
  controller : String
  /-- Which of its replicas; if nothing is known, the controller stands for it. -/
  replica : Option String := none
deriving DecidableEq, Inhabited, Repr

namespace Recorder

/-- The document of an event about an object. -/
def writeEvent (r : Recorder) (about : ObjectReference) (e : Event) : Json :=
  .ofPresent
    [("apiVersion", some (.text Collection.events.kind.apiVersion)),
      ("kind", some (.text Collection.events.kind.kind)),
      ("metadata", some (.ofPresent [("namespace", about.namespaceName.map .text)])),
      ("type", some (.text e.type)), ("reason", some (.text e.reason)),
      ("note", e.note.map .text), ("action", some (.text e.action)),
      ("regarding", some (writeReference about)),
      ("reportingController", some (.text r.controller)),
      ("reportingInstance", some (.text (r.replica.getD r.controller)))]

/-- The request that records an event about an object. -/
def request (r : Recorder) (about : ObjectReference) (e : Event) : Request where
  method := .post
  target :=
    ⟨Collection.events.path (some (about.namespaceName.getD standardNamespace)), some []⟩
  body := some (r.writeEvent about e)

/-- Record a failure on an object. -/
def record (r : Recorder) (about : ObjectReference) (f : Failure) : Program apiServer Unit :=
  (fetchDocument (r.request about f.toEvent) (document .incoming Collection.events.kind)).bind fun
    | .ok _ => .done ()
    | .error e =>
      .log (.failureUnrecorded (about.name.getD "") f.pass f.reason.label (f.resource.getD "")
        e.message)

end Recorder

end Reconciler.Cluster
