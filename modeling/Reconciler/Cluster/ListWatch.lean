import Reconciler.Cluster.Document
import Reconciler.Cluster.Request
import Reconciler.Informer.Machine

/-!
# Listing and watching a collection

The two calls of an informer as requests. A list is one document. A watch is a stream of lines, each
a change, an error status, or a bare status with which the server gives up; the HTTP code of the
response does not matter. A line that was cut off when the connection ended is passed over in
silence, since the change it announces comes again with the next watch. What went wrong in a line
before it was cut off counts, so the members of a line are judged in the order in which they come.

Failures are sorted by `Error.ofSource`: an unreadable answer will be the same the next time, a
refusal is the server's, and everything else is the transport's.
-/

namespace Reconciler.Cluster

open Text (Json)
open Text.Json (Decoder Draft Stop unlessStopped enter mismatch)

/-- Which objects an informer is about, and how long one watch lasts. -/
structure ListWatch where
  /-- Where the objects are. -/
  collection : Collection
  /-- Their namespace; without one, all namespaces. -/
  namespaceName : Option String := none
  /-- Selects by labels. -/
  labels : Option String := none
  /-- Selects by fields. -/
  fields : Option String := none
  /-- How many seconds a watch lasts. -/
  timeout : Nat

namespace ListWatch

/-- The server ends a watch before 295 seconds, whatever it is asked for. -/
def maxTimeout : Nat := 290

/-- All objects of a collection. -/
def all (c : Collection) (namespaceName : Option String) : ListWatch where
  collection := c
  namespaceName := namespaceName
  timeout := maxTimeout

/-- Watch for so many seconds, but no longer than the server allows. -/
def withTimeout (l : ListWatch) (seconds : Nat) : ListWatch :=
  { l with timeout := min seconds maxTimeout }

/-- The parameters that select objects. -/
def selectors (l : ListWatch) : List (String × String) :=
  (l.fields.toList.map fun s => ("fieldSelector", s)) ++
    l.labels.toList.map fun s => ("labelSelector", s)

/-- The request for a list. -/
def listRequest (l : ListWatch) : Request where
  method := .get
  target := ⟨l.collection.path l.namespaceName, some l.selectors⟩

/-- The request for a watch from a version. -/
def watchRequest (l : ListWatch) (version : String) : Request where
  method := .get
  target :=
    ⟨l.collection.path l.namespaceName,
      some ([("watch", "true"), ("timeoutSeconds", toString l.timeout)] ++ l.selectors ++
        [("allowWatchBookmarks", "true"), ("resourceVersion", version)])⟩

end ListWatch

/-! ## Lists -/

/-- The metadata of a list, of which only the version counts. -/
def listVersion : Decoder String :=
  .members (fun version => fun
    | "resourceVersion" => Decoder.put (.optional .text) fun a => a.getD ""
    | "continue" | "selfLink" => vetted .text version
    | "remainingItemCount" => vetted longNumber version
    | _ => none) ""

/-- The members of a list that were read so far. -/
structure ListMembers where
  /-- The version. -/
  version : Option String := none
  /-- The items. -/
  items : Option (List Document) := none

/-- The items of a list, which may be null. -/
def listItems (k : Kind) : Decoder (List Document) :=
  (Decoder.optional (.listOf (document .incoming k))).map fun items => items.getD []

/-- The decoder of a member of a list. Members of any other name may be there, and they are read. -/
def ListMembers.member (k : Kind) (l : ListMembers) : String → Option (Decoder ListMembers)
  | "metadata" => Decoder.once l.version listVersion fun a => { l with version := some a }
  | "items" => Decoder.once l.items (listItems k) fun a => { l with items := some a }
  | _ => Decoder.put .any fun _ => l

/-- A list. Its items may be null but not missing. -/
def objectList (k : Kind) : Decoder (ObjectList Json) := fun depth x => do
  let l ← Decoder.members (ListMembers.member k) {} depth x
  match l.items with
  | some items => .ok ⟨items, l.version.getD ""⟩
  | none => .error .broken

/-! ## Bookmarks -/

/-- The members of the metadata of a bookmark that were read so far. -/
structure BookmarkMetadata where
  /-- The version. -/
  version : Option String := none
  /-- The annotations. -/
  annotations : Option (List (String × String)) := none

/-- The decoder of a member of the metadata of a bookmark. -/
def BookmarkMetadata.member (m : BookmarkMetadata) : String → Option (Decoder BookmarkMetadata)
  | "resourceVersion" => Decoder.once m.version .text fun a => { m with version := some a }
  | "annotations" =>
    Decoder.once m.annotations (.table .text) fun a => { m with annotations := some a }
  | _ => none

/-- The version in the metadata of a bookmark: a record with it, or a list that begins with it. -/
def bookmarkVersion : Decoder String
  | depth, .list items stop =>
    enter depth fun depth => do
      let (version, items) ← Decoder.nextItem .text none depth stop items
      let (_, items) ← Decoder.nextItem (.table .text) (some []) depth stop items
      Decoder.lastItem stop version items
  | depth, x => do
    let m ← Decoder.members BookmarkMetadata.member {} depth x
    match m.version with
    | some version => .ok version
    | none => .error .broken

/-- The members of a bookmark that were read so far. -/
structure BookmarkMembers where
  /-- The version. -/
  version : Option String := none
  /-- All other members. -/
  others : List (String × Json) := []

/-- The decoder of a member of a bookmark. A bookmark may have members of any other name, and they
are read. -/
def BookmarkMembers.member (b : BookmarkMembers) : String → Option (Decoder BookmarkMembers)
  | "metadata" => Decoder.once b.version bookmarkVersion fun a => { b with version := some a }
  | name => Decoder.put .any fun a => { b with others := (name, a) :: b.others }

/-- The member is there once, as a text. -/
def BookmarkMembers.says (b : BookmarkMembers) (name : String) : Bool :=
  match b.others.filter fun m => m.1 == name with
  | [(_, .text _)] => true
  | _ => false

/-- A bookmark, which has nothing but a type and a version. -/
def bookmark : Decoder String := fun depth x => do
  let b ← Decoder.members BookmarkMembers.member {} depth x
  match b.version with
  | some version => if b.says "apiVersion" && b.says "kind" then .ok version else .error .broken
  | none => .error .broken

/-! ## Lines of a watch -/

/-- What the line of a watch announces. -/
inductive Announcement where
  /-- An object was added. -/
  | added
  /-- An object was changed. -/
  | modified
  /-- An object was deleted. -/
  | deleted
  /-- A version was reached. -/
  | bookmark
  /-- The stream has failed. -/
  | failure
deriving DecidableEq, Repr

/-- What the line of a watch delivers. -/
abbrev Delivery := Except Error (WatchEvent Json)

namespace Announcement

/-- The announcement with a name. -/
def ofName? : String → Option Announcement
  | "ADDED" => some added
  | "MODIFIED" => some modified
  | "DELETED" => some deleted
  | "BOOKMARK" => some bookmark
  | "ERROR" => some failure
  | _ => none

/-- The name of an announcement. -/
def name : Decoder Announcement := fun depth x => do
  match ofName? (← Decoder.text depth x) with
  | some a => .ok a
  | none => .error .broken

/-- The name of an announcement, or a record whose only member has that name and is null. -/
def tag : Decoder Announcement
  | depth, .record members stop =>
    enter depth fun depth =>
      match members with
      | [] => .error (stop.getD .broken)
      | (member, x) :: rest => do
        let a ← name depth (.text member)
        Decoder.null depth x
        if rest.isEmpty then unlessStopped stop a else .error .broken
  | depth, .text s => name depth (.text s)
  | _, .missing stop => .error stop
  | _, _ => .error .broken

/-- What an announcement delivers. -/
def delivery (r : Reading) (k : Kind) : Announcement → Decoder Delivery
  | added => (document r k).map fun o => .ok (.added o)
  | modified => (document r k).map fun o => .ok (.modified o)
  | deleted => (document r k).map fun o => .ok (.deleted o)
  | bookmark => Cluster.bookmark.map fun version => .ok (.bookmark version)
  | failure => statusDecoder.map fun s => .error (.ofInBand s)

end Announcement

/-- How much of a line was read. -/
inductive LineProgress where
  /-- Neither the type nor the object. -/
  | nothing
  /-- The type. -/
  | tagged (a : Announcement)
  /-- The object, of which nothing is known yet but that it is a document. -/
  | held (object : Draft)
  /-- Both. -/
  | delivered (d : Delivery)

/-- The decoder of a member of a line. The type and the object may come in either order, and neither
may come again. -/
def LineProgress.member (k : Kind) (p : LineProgress) : String → Option (Decoder LineProgress)
  | "type" =>
    some <|
      match p with
      | nothing => Announcement.tag.map tagged
      | held object => fun depth x => do
        let a ← Announcement.tag depth x
        (a.delivery .heldBack k depth object).map delivered
      | _ => .refuse
  | "object" =>
    some <|
      match p with
      | nothing => fun depth x => (Decoder.any depth x).map fun _ => held x
      | tagged a => (a.delivery .incoming k).map delivered
      | _ => .refuse
  | _ => none

/-- The line of a watch: a record with a type and an object, or a list of the two. -/
def watchEvent (k : Kind) : Decoder Delivery
  | depth, .list items stop =>
    enter depth fun depth => do
      let (a, items) ← Decoder.nextItem Announcement.name none depth stop items
      let (d, items) ← Decoder.nextItem (a.delivery .incoming k) none depth stop items
      Decoder.lastItem stop d items
  | depth, x => do
    match ← Decoder.members (LineProgress.member k) .nothing depth x with
    | .delivered d => .ok d
    | _ => .error .broken

/-- What a line of a watch delivers; nothing for one that was cut off before it went wrong. -/
def watchLine? (k : Kind) (line : String) : Option Delivery :=
  match Json.decode (watchEvent k) line with
  | .ok d => some d
  | .error .cut => none
  | .error .broken =>
    some <| .error <| .ofSource <|
      match Json.decode statusDecoder line with
      | .ok s => .api s
      | .error _ => .malformed "unexpected line"

/-- The lines of a stream. A line ends in a line feed, which a carriage return may precede. -/
def streamLines (body : String) : List String :=
  (body.splitOn "\n").map fun l =>
    if l.endsWith "\r" then (l.dropEnd 1).toString else l

/-! ## Calls -/

namespace ListWatch

/-- List the objects. -/
def list (l : ListWatch) : Program apiServer (Except Error (ObjectList Json)) :=
  rewording .ofSource (fetchDocument l.listRequest (objectList l.collection.kind))

/-- Watch the objects from a version to the end of the stream. -/
def watch (l : ListWatch) (version : String) :
    Program apiServer (Except Error (List Delivery)) :=
  rewording .ofSource ((exchange (l.watchRequest version)).bind fun answer =>
    .done (answer.map fun r => (streamLines r.body).filterMap (watchLine? l.collection.kind)))

end ListWatch

end Reconciler.Cluster
