/-!
# Objects

A watched object is its metadata and a body of type `β` that the library never looks into. What the
library reads and writes of the metadata is the name, the namespace, the resource version, the
deletion timestamp, the finalizers and the labels; whatever else an object has is body and comes
back from every edit as it was.
-/

namespace Reconciler

/-- Identifying and bookkeeping fields of an object. -/
structure Metadata where
  /-- Name, unique in its namespace. -/
  name : Option String := none
  /-- First part of a name that the server makes up. -/
  generateName : Option String := none
  /-- Namespace; objects of the whole cluster have none. -/
  namespaceName : Option String := none
  /-- Version of the stored object. -/
  resourceVersion : Option String := none
  /-- Identity of this object among all objects that ever had its name. -/
  uid : Option String := none
  /-- When the object began to be deleted, if it did. -/
  deletionTimestamp : Option String := none
  /-- Who has to agree before the object may go. -/
  finalizers : Option (List String) := none
  /-- Labels. -/
  labels : List (String × String) := []
deriving DecidableEq, Inhabited, Repr

/-- An object with body `β`. -/
structure Object (β : Type) where
  /-- The fields that the library reads and writes. -/
  metadata : Metadata
  /-- Everything else. -/
  body : β
deriving DecidableEq, Inhabited, Repr

/-- The key of a name in a namespace, or in the cluster. -/
def objectKey (namespaceName : Option String) (name : String) : String :=
  match namespaceName with
  | some ns => ns ++ "/" ++ name
  | none => name

namespace Object

variable {β : Type}

/-- The name, or what it will begin with, or nothing. -/
def name (o : Object β) : String :=
  match o.metadata.name with
  | some n => n
  | none => o.metadata.generateName.getD ""

/-- The namespace and the name with a slash between them, or the name alone. -/
def key (o : Object β) : String := objectKey o.metadata.namespaceName o.name

/-- The object carries a deletion timestamp. -/
def isDeleting (o : Object β) : Bool := o.metadata.deletionTimestamp.isSome

/-- The resource version, empty if there is none. -/
def version (o : Object β) : String := o.metadata.resourceVersion.getD ""

/-- The finalizers in order. -/
def finalizers (o : Object β) : List String := o.metadata.finalizers.getD []

/-- The object carries the finalizer `f`. -/
def hasFinalizer (o : Object β) (f : String) : Bool := o.finalizers.any (· == f)

/-- The object with other finalizers. -/
def setFinalizers (o : Object β) (fs : List String) : Object β :=
  { o with metadata := { o.metadata with finalizers := some fs } }

/-- The object with `f` as its last finalizer. -/
def addFinalizer (o : Object β) (f : String) : Object β := o.setFinalizers (o.finalizers ++ [f])

/-- The object without any finalizer `f`. -/
def dropFinalizer (o : Object β) (f : String) : Object β :=
  o.setFinalizers (o.finalizers.filter fun g => g != f)

/-- Value of a label. -/
def label? (o : Object β) (l : String) : Option String := o.metadata.labels.lookup l

end Object

/-- A kind of objects: how it is written and where the server keeps it. -/
structure Kind where
  /-- Group and version. -/
  apiVersion : String
  /-- Name of the kind. -/
  kind : String
deriving DecidableEq, Inhabited, Repr

/-- A pointer to an object. -/
structure ObjectReference where
  /-- Group and version of the kind. -/
  apiVersion : Option String := none
  /-- Name of the kind. -/
  kind : Option String := none
  /-- Name of the object. -/
  name : Option String := none
  /-- Namespace of the object. -/
  namespaceName : Option String := none
  /-- Identity of the object. -/
  uid : Option String := none
  /-- Version of the object that is meant. -/
  resourceVersion : Option String := none
deriving DecidableEq, Inhabited, Repr

/-- Point to an object of a kind, at whatever version. -/
def Object.reference {β : Type} (o : Object β) (k : Kind) : ObjectReference where
  apiVersion := some k.apiVersion
  kind := some k.kind
  name := o.metadata.name
  namespaceName := o.metadata.namespaceName
  uid := o.metadata.uid

end Reconciler
