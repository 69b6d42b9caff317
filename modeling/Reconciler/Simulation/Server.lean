import Reconciler.Cluster.ListWatch
import Reconciler.Cluster.Objects
import Reconciler.Cluster.Recorder

/-!
# An API server that answers by script

The script holds one answer for each request, in order. A request after the last answer is not
answered.
-/

namespace Reconciler.Simulation

open Cluster (Request Response)

/-- The script and what happened so far. -/
structure ScriptedServer where
  /-- The answers to the next requests. -/
  script : List (Except String Response)
  /-- The requests so far, newest first. -/
  requests : List Request := []
  /-- Signals, newest first. -/
  signals : List Signal := []

namespace ScriptedServer

/-- What a program that talks to the server runs against. -/
def surroundings : Program.Surroundings Cluster.apiServer ScriptedServer where
  answer r s :=
    (s.script.headD (.error "no more responses"),
      { s with script := s.script.drop 1, requests := r :: s.requests })
  moment s := (⟨.zero, 0.5⟩, s)
  observe e s := { s with signals := e :: s.signals }

/-- Forget what happened. -/
def clear (s : ScriptedServer) : ScriptedServer := { s with requests := [], signals := [] }

end ScriptedServer

/-- Something that a client of the server does. -/
inductive ClusterCommand where
  /-- List the objects. -/
  | list
  /-- Watch the objects from a version. -/
  | watch (version : String)
  /-- Read an object. -/
  | get (store : Cluster.ObjectStore) (namespaceName : Option String) (name : String)
  /-- Replace an object. -/
  | replace (store : Cluster.ObjectStore) (o : Cluster.Document)
  /-- Create a definition. -/
  | createDefinition (name : Option String)
  /-- Read a definition. -/
  | getDefinition (name : String)
  /-- Delete a definition. -/
  | deleteDefinition (name : String)
  /-- Record a failure on an object. -/
  | record (recorder : Cluster.Recorder) (about : ObjectReference) (f : Failure)

/-- What a client gets. -/
inductive ClusterOutcome where
  /-- The call failed. -/
  | failed (e : Error)
  /-- A list. -/
  | contents (l : ObjectList Text.Json)
  /-- What a watch yielded. -/
  | stream (items : List (Except Error (WatchEvent Text.Json)))
  /-- An object, and whether its kind has namespaces. -/
  | object (o : Cluster.Document) ( isNamespaced : Bool)
  /-- Name of a definition, if it has one, and whether it is established. -/
  | definition (name : Option String) ( isEstablished : Bool)
  /-- The call succeeded. -/
  | succeeded
  /-- The failure was recorded, or not. -/
  | done

/-- The outcome of a call that yields an `α`. -/
def ClusterOutcome.of {α : Type} (f : α → ClusterOutcome) : Except Error α → ClusterOutcome
  | .ok a => f a
  | .error e => .failed e

/-- What a client does. -/
def ClusterCommand.program (l : Cluster.ListWatch) :
    ClusterCommand → Program Cluster.apiServer ClusterOutcome
  | .list => l.list.bind fun r => .done (.of .contents r)
  | .watch version => (l.watch version).bind fun r => .done (.of .stream r)
  | .get store namespaceName name =>
    (store.get namespaceName name).bind fun r =>
      .done (.of (fun o => .object o store.defaultNamespace.isSome) r)
  | .replace store o =>
    (store.replace o).bind fun r =>
      .done (.of (fun o => .object o store.defaultNamespace.isSome) r)
  | .createDefinition name =>
    (Cluster.createDefinition ⟨{ name := name }, .null⟩).bind fun r =>
      .done (.of (fun _ => .succeeded) r)
  | .getDefinition name =>
    (Cluster.getDefinition name).bind fun r =>
      .done (.of (fun o => .definition o.metadata.name (isEstablished o.body)) r)
  | .deleteDefinition name =>
    (Cluster.deleteDefinition name).bind fun r => .done (.of (fun _ => .succeeded) r)
  | .record recorder about f => (recorder.record about f).bind fun _ => .done .done

/-- Do it against the scripted server. -/
def ScriptedServer.obey (s : ScriptedServer) (l : Cluster.ListWatch) (c : ClusterCommand) :
    Option ClusterOutcome × ScriptedServer :=
  (c.program l).run ScriptedServer.surroundings s

end Reconciler.Simulation
