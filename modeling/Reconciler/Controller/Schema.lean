import Reconciler.Retry

/-!
# Schema definitions

Before objects of a kind can be listed the server has to serve the kind.
`Definition.ensureEstablished` creates the definition, waits until the server reports it
established, and deletes it again if that never happens. A definition that existed before is never
deleted: that would delete every object of its kind.
-/

namespace Reconciler

/-- A condition in the status of a definition. -/
structure Condition where
  /-- What the condition is about. -/
  type : String
  /-- Whether it holds, as the server writes it. -/
  status : String
deriving DecidableEq, Inhabited, Repr

/-- The status of a definition; the conditions may be missing. -/
structure DefinitionStatus where
  /-- The conditions reported so far. -/
  conditions : Option (List Condition) := none
deriving DecidableEq, Inhabited, Repr

/-- The status reports that the kind is served. -/
def DefinitionStatus.isEstablished (s : DefinitionStatus) : Bool :=
  (s.conditions.getD []).any fun c => c.type == "Established" && c.status == "True"

/-- The definition, as last read, reports that its kind is served. -/
def isEstablished (status : Option DefinitionStatus) : Bool :=
  status.any DefinitionStatus.isEstablished

/-- Questions about definitions, which are known by their name. -/
inductive DefinitionRequest where
  /-- Create the definition. -/
  | create (name : String)
  /-- Read the status of the definition. -/
  | get (name : String)
  /-- Delete the definition. -/
  | delete (name : String)
deriving DecidableEq, Repr

/-- The definitions of a cluster. -/
def definitions : Interface where
  Request := DefinitionRequest
  Reply
    | .get _ => Except Error (Option DefinitionStatus)
    | _ => Except Error Unit

/-- A definition to bring into service, with the policy of waiting for it. -/
structure Definition where
  /-- Name of the definition. -/
  name : String
  /-- How often and how long to wait. -/
  policy : RetryPolicy
deriving Inhabited

namespace Definition

/-- Wait between two looks at the status. -/
def pollInterval : Duration := .ofSecs 2

/-- How often the status is looked at again. -/
def maxPolls : Nat := 30

/-- The default waiting policy. -/
def standardPolicy : RetryPolicy := ⟨.capped (.constant pollInterval) maxPolls 0, 100000⟩

/-- Check a definition. -/
def ofName (name : Option String) (policy : RetryPolicy := standardPolicy) :
    Except Error Definition :=
  match name with
  | some n =>
    if n.isEmpty then .error (.invalidConfig "crd" "definition must have a name")
    else .ok ⟨n, policy⟩
  | none => .error (.invalidConfig "crd" "definition must have a name")

/-- One look at the status. -/
def poll (d : Definition) : Program definitions (Except Error Unit) :=
  (Program.request (I := definitions) (.get d.name)).andThen fun status =>
    if isEstablished status then .done (.ok ())
    else .done (.error (.timeout "wait_for_crd" (d.name ++ " not established")))

/-- Delete the definition again; what goes wrong is only logged. -/
def rollBack (d : Definition) (cause : Error) : Program definitions Unit :=
  (Program.log (.definitionRollback d.name cause)).bind fun _ =>
    (Program.request (I := definitions) (.delete d.name)).bind fun
      | .ok _ => .done ()
      | .error e =>
        if e.isNotFound then .done () else .log (.definitionRollbackFailed d.name e)

/-- Wait for the definition and, if it was created here, delete it when it is not served. -/
def await (d : Definition) (created : Bool) : Program definitions (Except Error Unit) :=
  (retryLogged d.policy "wait_for_crd" d.poll).bind fun
    | .ok _ => (Program.log (.definitionEstablished d.name)).bind fun _ => .done (.ok ())
    | .error e =>
      if created then (d.rollBack e).bind fun _ => .done (.error e) else .done (.error e)

/-- Bring the definition into service. -/
def ensureEstablished (d : Definition) : Program definitions (Except Error Unit) :=
  (Program.request (I := definitions) (.create d.name)).bind fun
    | .ok _ => (Program.log (.definitionCreated d.name)).bind fun _ => d.await true
    | .error e =>
      if e.isConflict then
        (Program.log (.definitionExists d.name)).bind fun _ => d.await false
      else .done (.error e)

end Definition

end Reconciler
