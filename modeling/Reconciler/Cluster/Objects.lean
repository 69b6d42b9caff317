import Reconciler.Cluster.Document
import Reconciler.Cluster.Request
import Reconciler.Controller.Client

/-!
# Objects and definitions on the server

The questions of the object client and of the definitions client, answered by requests. Both name
the object in their errors, so that a 404 says what was not found and a 409 what was changed.

An `ObjectStore` says where the objects of a collection are. Objects of a namespaced kind without a
namespace are in the default one; the key in an error is that of the object as it was asked for.
-/

namespace Reconciler.Cluster

open Text (Json)
open Text.Json (Decoder)

/-- Where the objects of a collection are. -/
structure ObjectStore where
  /-- The collection. -/
  collection : Collection
  /-- The namespace of objects that name none; nothing if the kind has no namespaces. -/
  defaultNamespace : Option String
deriving DecidableEq, Inhabited, Repr

/-- The default of the default namespace. -/
def standardNamespace : String := "default"

namespace ObjectStore

/-- The namespace to look in. -/
def place (s : ObjectStore) (namespaceName : Option String) : Option String :=
  s.defaultNamespace.map namespaceName.getD

/-- The latest copy of an object. -/
def get (s : ObjectStore) (namespaceName : Option String) (name : String) :
    Program apiServer (Except Error Document) :=
  rewording (.ofServerFor (objectKey namespaceName name)) <| aboutNamed name <|
    fetchDocument
      { method := .get, target := ⟨s.collection.objectPath (s.place namespaceName) name, none⟩ }
      (document .incoming s.collection.kind)

/-- Store a copy in place of the version it was made from. -/
def replace (s : ObjectStore) (o : Document) : Program apiServer (Except Error Document) :=
  rewording (.ofServerFor o.key) <| aboutNamed o.name <|
    fetchDocument
      { method := .put
        target := ⟨s.collection.objectPath (s.place o.metadata.namespaceName) o.name, some []⟩
        body := some (writeObject s.collection.kind o) }
      (document .incoming s.collection.kind)

/-- Answer the questions about stored objects. -/
def answer (s : ObjectStore) :
    (q : ObjectRequest Json) → Program apiServer ((objectClient Json).Reply q)
  | .get namespaceName name => s.get namespaceName name
  | .replace o => s.replace o

end ObjectStore

/-! ## Definitions -/

/-- A definition with its status. -/
def definition : Decoder (Object (Option DefinitionStatus)) :=
  objectWith Collection.definitions.kind (fun _ => fun
    | "status" => Decoder.put (.optional definitionStatus) id
    | _ => none) none

/-- The answer to a deletion is the object, or a status that says that it is gone. -/
def deletion : Decoder Unit := fun depth x => do
  let j ← Decoder.any depth x
  match (j.member? "kind").bind Json.text? with
  | some "Status" => .ok ()
  | _ => definition.check depth x

/-- Create a definition. -/
def createDefinition (o : Document) : Program apiServer (Except Error Unit) :=
  rewording (.ofServerFor (o.metadata.name.getD "")) <|
    fetchDocument
      { method := .post
        target := ⟨Collection.definitions.path none, some []⟩
        body := some (writeObject Collection.definitions.kind o) }
      definition.check

/-- Read a definition. -/
def getDefinition (name : String) :
    Program apiServer (Except Error (Object (Option DefinitionStatus))) :=
  rewording (.ofServerFor name) <| aboutNamed name <|
    fetchDocument
      { method := .get, target := ⟨Collection.definitions.objectPath none name, none⟩ }
      definition

/-- Delete a definition. -/
def deleteDefinition (name : String) : Program apiServer (Except Error Unit) :=
  rewording (.ofServerFor name) <| aboutNamed name <|
    fetchDocument
      { method := .delete
        target := ⟨Collection.definitions.objectPath none name, some []⟩
        body := some (.record []) }
      deletion

/-- Answer the questions about definitions, where `body` is the document to create. -/
def answerDefinition (body : Json) :
    (q : DefinitionRequest) → Program apiServer (definitions.Reply q)
  | .create name => createDefinition ⟨{ name := some name }, body⟩
  | .get name => (getDefinition name).bind fun r => .done (r.map (·.body))
  | .delete name => deleteDefinition name

end Reconciler.Cluster
