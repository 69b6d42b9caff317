import Reconciler.Text.Quoted

/-!
# Errors

One type for everything that can go wrong, by cause. `Error.message` is the wording shown to people;
the questions that other parts ask of an error (is the version expired, does trying again help) are
predicates on the cause and never look at the wording.

A refusal by the API server is a `ServerFailure`. It enters the library on three routes:
`Error.ofServer` keeps it as it is, `Error.ofServerFor` names the object of a 404 or a 409, and
`Error.ofSource` sorts the failures of the list and watch calls. A status that the server sends
inside a watch stream refuses no request, and becomes an error by `Error.ofInBand`.
-/

namespace Reconciler

/-- The status body with which the API server refuses a request. -/
structure Status where
  /-- Outcome word, `Failure` for a refusal. -/
  status : String
  /-- Description for people. -/
  message : String
  /-- Machine-readable cause. -/
  reason : String
  /-- HTTP status code. -/
  code : Nat
deriving DecidableEq, Inhabited, Repr

/-- What the Kubernetes client reports when a request fails. -/
inductive ServerFailure where
  /-- The API server answered with a status body. -/
  | api (status : Status)
  /-- The answer was not the JSON that the request calls for. -/
  | malformed (detail : String)
  /-- Anything else: the request never got a readable answer. -/
  | other (detail : String)
deriving DecidableEq, Inhabited, Repr

/-- The status in the notation of diagnostics. -/
def Status.debugText (s : Status) : String :=
  "ErrorResponse \x7b status: " ++ Text.quoted s.status ++ ", message: " ++ Text.quoted s.message ++
    ", reason: " ++ Text.quoted s.reason ++ ", code: " ++ toString s.code ++ " \x7d"

/-- Wording of a client failure. -/
def ServerFailure.message : ServerFailure → String
  | .api s => "ApiError: " ++ s.message ++ ": " ++ s.reason ++ " (" ++ s.debugText ++ ")"
  | .malformed detail => "Error deserializing response: " ++ detail
  | .other detail => detail

/-- Everything that can go wrong, by cause. -/
inductive Error where
  /-- A failure of the Kubernetes client. -/
  | server (failure : ServerFailure)
  /-- Missing or contradictory configuration of `component`. -/
  | invalidConfig (component message : String)
  /-- A way of decorating that does not apply to `resource`. -/
  | incompatible (resource message : String)
  /-- Unwrapping was given up after `depth` steps. -/
  | loopDetected (depth : Nat)
  /-- An operation of `resource` failed; `retryable` if trying again may help. -/
  | resource (resource message : String) (retryable : Bool)
  /-- Someone else changed `object` in the meantime. -/
  | conflict (object : String)
  /-- There is no `object`. -/
  | notFound (object : String)
  /-- An error status delivered inside a watch stream. -/
  | watch (code : Nat) (message : String)
  /-- An event or object that could not be read. -/
  | decode (message : String)
  /-- The remote API could not be reached. -/
  | transport (message : String)
  /-- The operation took too long. -/
  | timeout (operation message : String)
  /-- The resource was handed a payload of a type it does not own. -/
  | typeMismatch (resource message : String)
  /-- A defect or an operational fault noticed by `context`. -/
  | internal (context message : String)
deriving DecidableEq, Inhabited, Repr

namespace Error

/-- The context of an internal error that names none. -/
def unknownContext : String := "unknown"

/-- HTTP status of an expired resource version. -/
def goneCode : Nat := 410

/-- Wording of an error. -/
def message : Error → String
  | .server failure => "kubernetes error: " ++ failure.message
  | .invalidConfig component m => "invalid config for " ++ component ++ ": " ++ m
  | .incompatible name m => "incompatible underlying resource " ++ name ++ ": " ++ m
  | .loopDetected depth =>
    "loop detected while unwrapping resource after " ++ toString depth ++ " steps"
  | .resource name m _ => "resource " ++ name ++ ": " ++ m
  | .conflict object => "conflict updating " ++ object
  | .notFound object => object ++ " not found"
  | .watch code m => "watch error (" ++ toString code ++ "): " ++ m
  | .decode m => "decode error: " ++ m
  | .transport m => "transport error: " ++ m
  | .timeout operation m => "timeout in " ++ operation ++ ": " ++ m
  | .typeMismatch name m => "type mismatch in resource " ++ name ++ ": " ++ m
  | .internal context m => "internal error [" ++ context ++ "]: " ++ m

/-- Keep a client failure as it is. -/
def ofServer (failure : ServerFailure) : Error := .server failure

/-- A client failure about `object`: a 404 says that it does not exist, a 409 that it changed. -/
def ofServerFor (object : String) : ServerFailure → Error
  | .api s =>
    if s.code = 404 then .notFound object
    else if s.code = 409 then .conflict object
    else .server (.api s)
  | failure => .server failure

/-- A client failure of a list or watch call: unreadable, refused, or not reached. -/
def ofSource : ServerFailure → Error
  | .malformed detail => .decode detail
  | .api s => .server (.api s)
  | failure => .transport failure.message

/-- A status that comes in a watch stream in place of a change. -/
def ofInBand (s : Status) : Error := .watch s.code s.message

/-- The error is about configuration. -/
def isInvalidConfig : Error → Bool
  | .invalidConfig .. => true
  | _ => false

/-- The error says that a way of decorating does not apply. -/
def isIncompatible : Error → Bool
  | .incompatible .. => true
  | _ => false

/-- The error says that unwrapping was given up. -/
def isLoopDetected : Error → Bool
  | .loopDetected .. => true
  | _ => false

/-- The error says that a payload had the wrong type. -/
def isTypeMismatch : Error → Bool
  | .typeMismatch .. => true
  | _ => false

/-- Someone else changed the object. -/
def isConflict : Error → Bool
  | .conflict _ => true
  | .server (.api s) => s.code == 409
  | _ => false

/-- The object does not exist. -/
def isNotFound : Error → Bool
  | .notFound _ => true
  | .server (.api s) => s.code == 404
  | _ => false

/-- The resource version expired, so only a fresh list helps. -/
def isGone : Error → Bool
  | .watch code _ => code == goneCode
  | .server (.api s) => s.code == goneCode
  | _ => false

/-- Trying again may help. Of the server's refusals those between 400 and 499 are final, except a
409, which a fresh read resolves; defects of configuration, wrapping and typing always are. -/
def isRetryable : Error → Bool
  | .server (.api s) => s.code == 409 || !(400 ≤ s.code && s.code < 500)
  | .server _ => true
  | .invalidConfig .. => false
  | .incompatible .. => false
  | .loopDetected .. => false
  | .resource _ _ retryable => retryable
  | .conflict _ => true
  | .notFound _ => false
  | .watch .. => true
  | .decode _ => false
  | .transport _ => true
  | .timeout .. => true
  | .typeMismatch .. => false
  | .internal .. => true

/-- The resource that the error names, if it is about one. -/
def resourceName? : Error → Option String
  | .incompatible name _ => some name
  | .resource name _ _ => some name
  | .typeMismatch name _ => some name
  | _ => none

end Error

end Reconciler
