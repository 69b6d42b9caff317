import Reconciler.Controller.Schema
import Reconciler.Object
import Reconciler.Text.Base64
import Reconciler.Text.Json.Decoder
import Reconciler.Text.Timestamp

/-!
# Objects as documents

How objects are written on the wire. The body of an object that came from the server is the document
it was read from, so writing it back changes only what the metadata say. Members of the metadata
that the library does not use stay in the body with the rest.

A document says what it is by `apiVersion` and `kind`. Both may be missing, and neither may be
wrong. Every member of the metadata that has a meaning has to be what it is meant to be, also the
ones that the library does not use; null stands for a missing one, and of several of one name the
last one counts. Of the bodies only those of configuration maps are looked at like that
(`bodyMember`).

A document whose kind is known in advance is decoded as it comes in; one that comes before its kind
is held back until then (`Reading`). The two differ in one place: among the bytes of a configuration
map, null stands for no bytes only while the document comes in.
-/

namespace Reconciler.Cluster

open Text (Json)
open Text.Json (Decoder)

/-- A kind of objects and where the server keeps them. -/
structure Collection where
  /-- How objects of the kind are written. -/
  kind : Kind
  /-- The last part of the path. -/
  plural : String
deriving DecidableEq, Inhabited, Repr

/-- An object with the document it was read from. -/
abbrev Document := Object Json

/-! ## Reading -/

/-- When a document is decoded. -/
inductive Reading where
  /-- While it comes in. -/
  | incoming
  /-- Later, since it was held back until its kind was known. -/
  | heldBack
deriving DecidableEq, Repr

/-- A timestamp. -/
def timestamp : Decoder String := .textThat Text.Timestamp.isValid

/-- A whole number of 64 bits. -/
def longNumber : Decoder Int := .integer (-(UInt64.size / 2 : Nat)) (UInt64.size / 2 : Nat)

/-- A member that may be null and that does not matter, except that it has to be what it is meant to
be. -/
def vetted {α σ : Type} (d : Decoder α) (s : σ) : Option (Decoder σ) :=
  Decoder.put (.optional d) fun _ => s

/-- A reference to an owner. -/
def ownerReference : Decoder Unit :=
  .members (fun _ => fun
    | "apiVersion" | "kind" | "name" | "uid" => vetted .text ()
    | "blockOwnerDeletion" | "controller" => vetted .flag ()
    | _ => none) ()

/-- A note of who wrote which members. -/
def managedFields : Decoder Unit :=
  .members (fun _ => fun
    | "apiVersion" | "fieldsType" | "manager" | "operation" | "subresource" => vetted .text ()
    | "fieldsV1" => vetted .any ()
    | "time" => vetted timestamp ()
    | _ => none) ()

/-- The decoder of a member of metadata. -/
def metadataMember (m : Metadata) : String → Option (Decoder Metadata)
  | "name" => Decoder.put (.optional .text) fun a => { m with name := a }
  | "generateName" => Decoder.put (.optional .text) fun a => { m with generateName := a }
  | "namespace" => Decoder.put (.optional .text) fun a => { m with namespaceName := a }
  | "resourceVersion" => Decoder.put (.optional .text) fun a => { m with resourceVersion := a }
  | "uid" => Decoder.put (.optional .text) fun a => { m with uid := a }
  | "deletionTimestamp" =>
    Decoder.put (.optional timestamp) fun a => { m with deletionTimestamp := a }
  | "finalizers" => Decoder.put (.optional (.listOf .text)) fun a => { m with finalizers := a }
  | "labels" => Decoder.put (.optional (.table .text)) fun a => { m with labels := a.getD [] }
  | "annotations" => vetted (.table .text) m
  | "creationTimestamp" => vetted timestamp m
  | "deletionGracePeriodSeconds" | "generation" => vetted longNumber m
  | "managedFields" => vetted (.listOf managedFields) m
  | "ownerReferences" => vetted (.listOf ownerReference) m
  | "selfLink" => vetted .text m
  | _ => none

/-- Metadata. -/
def metadata : Decoder Metadata := .members metadataMember {}

/-- An object of a kind. The decoders of the members next to the metadata yield the body after
them. -/
def objectWith {β : Type} (k : Kind) (body : β → String → Option (Decoder β)) (start : β) :
    Decoder (Object β) :=
  .members (fun (o : Object β) => fun
    | "apiVersion" => Decoder.put (.textThat (· == k.apiVersion)) fun _ => o
    | "kind" => Decoder.put (.textThat (· == k.kind)) fun _ => o
    | "metadata" => Decoder.put (.optional metadata) fun a => { o with metadata := a.getD {} }
    | name => (body o.body name).map (Decoder.map fun b => { o with body := b })) ⟨{}, start⟩

/-- A text that stands for bytes. Null stands for none of them while the document comes in. -/
def byteText (r : Reading) : Decoder Unit :=
  let text := Decoder.textThat Text.Base64.isValid
  match r with
  | .incoming => (Decoder.optional text).check
  | .heldBack => text.check

/-- The decoder of a member in the body of a configuration map. -/
def configMapMember (r : Reading) : String → Option (Decoder Unit)
  | "data" => vetted (.table .text) ()
  | "binaryData" => vetted (.table (byteText r)) ()
  | "immutable" => vetted .flag ()
  | _ => none

/-- The decoder of a member in the body of an object of a kind. -/
def bodyMember (r : Reading) (k : Kind) (name : String) : Option (Decoder Unit) :=
  if k.kind = "ConfigMap" then configMapMember r name else none

/-- An object of a kind with its document. -/
def document (r : Reading) (k : Kind) : Decoder Document := fun depth x =>
  (objectWith k (fun _ => bodyMember r k) () depth x).map fun o => ⟨o.metadata, x.toJson⟩

/-- A condition. -/
def condition : Decoder Condition :=
  .members (fun (c : Condition) => fun
    | "type" => Decoder.put (.optional .text) fun a => { c with type := a.getD "" }
    | "status" => Decoder.put (.optional .text) fun a => { c with status := a.getD "" }
    | "message" | "reason" => vetted .text c
    | "lastTransitionTime" => vetted timestamp c
    | _ => none) ⟨"", ""⟩

/-- The status of a definition. -/
def definitionStatus : Decoder DefinitionStatus :=
  .members (fun _ => fun
    | "conditions" => Decoder.put (.optional (.listOf condition)) fun a => ⟨a⟩
    | _ => none) {}

/-! ## Writing -/

/-- The metadata as members; what is absent is left out. -/
def metadataMembers (m : Metadata) : List (String × Option Json) :=
  [("name", m.name.map .text), ("generateName", m.generateName.map .text),
    ("namespace", m.namespaceName.map .text), ("resourceVersion", m.resourceVersion.map .text),
    ("uid", m.uid.map .text), ("deletionTimestamp", m.deletionTimestamp.map .text),
    ("finalizers", m.finalizers.map fun fs => .list (fs.map .text)),
    ("labels", if m.labels.isEmpty then none else some (.ofTexts m.labels))]

/-- The record `base` with some of its members set, or left out. -/
def overlay (base : Json) (members : List (String × Option Json)) : Json :=
  .ofPresent (members ++ ((base.members?.getD []).filter fun b =>
    !members.any fun m => m.1 == b.1).map fun b => (b.1, some b.2))

/-- The document of an object. -/
def writeObject (k : Kind) (o : Document) : Json :=
  let metadata := overlay ((o.body.member? "metadata").getD .null) (metadataMembers o.metadata)
  overlay o.body [("apiVersion", some (.text k.apiVersion)), ("kind", some (.text k.kind)),
    ("metadata", some metadata)]

/-- The document of a reference; what is absent is left out. -/
def writeReference (r : ObjectReference) : Json :=
  .ofPresent [("apiVersion", r.apiVersion.map .text), ("kind", r.kind.map .text),
    ("name", r.name.map .text), ("namespace", r.namespaceName.map .text),
    ("uid", r.uid.map .text), ("resourceVersion", r.resourceVersion.map .text)]

/-! ## Paths -/

namespace Collection

/-- Where a group and version is served. The oldest group has no name and a root of its own. -/
def root (c : Collection) : String :=
  (if c.kind.apiVersion.contains '/' then "/apis/" else "/api/") ++ c.kind.apiVersion ++ "/"

/-- Path of the collection, in a namespace or in the cluster. -/
def path (c : Collection) (namespaceName : Option String) : String :=
  c.root ++
    (match namespaceName with
    | some ns => "namespaces/" ++ ns ++ "/"
    | none => "") ++ c.plural

/-- Path of one object. -/
def objectPath (c : Collection) (namespaceName : Option String) (name : String) : String :=
  c.path namespaceName ++ "/" ++ name

/-- Configuration maps. -/
def configMaps : Collection := ⟨⟨"v1", "ConfigMap"⟩, "configmaps"⟩

/-- Namespaces, which are objects of the cluster. -/
def namespaces : Collection := ⟨⟨"v1", "Namespace"⟩, "namespaces"⟩

/-- Schema definitions, which are objects of the cluster. -/
def definitions : Collection :=
  ⟨⟨"apiextensions.k8s.io/v1", "CustomResourceDefinition"⟩, "customresourcedefinitions"⟩

/-- Events. -/
def events : Collection := ⟨⟨"events.k8s.io/v1", "Event"⟩, "events"⟩

end Collection

end Reconciler.Cluster
