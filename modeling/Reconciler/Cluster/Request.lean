import Reconciler.Cluster.Target
import Reconciler.Program
import Reconciler.Text.Json.Decoder

/-!
# Requests to the API server

The server is an `Interface` whose questions are HTTP requests. An answer is a response, or the text
of what kept the request from being answered. `exchange` asks, `fetch` asks and takes a refusal for
what it is, and `fetchDocument` also reads the body. A request whose target cannot be sent is never
asked.

A response of class 4xx or 5xx refuses the request. Its body should be a `Status`; if it is not, the
status is made up from the response, so that a refusal always has one.
-/

namespace Reconciler.Cluster

open Text (Json)
open Text.Json (Decoder Draft Stop)

/-- HTTP methods. -/
inductive Method where
  /-- Read. -/
  | get
  /-- Create. -/
  | post
  /-- Replace. -/
  | put
  /-- Delete. -/
  | delete
deriving DecidableEq, Inhabited, Repr

/-- Name of a method. -/
def Method.label : Method → String
  | .get => "GET"
  | .post => "POST"
  | .put => "PUT"
  | .delete => "DELETE"

/-- A request. -/
structure Request where
  /-- The method. -/
  method : Method
  /-- What it is sent to. -/
  target : Target
  /-- The body, if the method has one. -/
  body : Option Json := none
deriving Inhabited, Repr

/-- The path as the server sees it. -/
def Request.path (r : Request) : String := r.target.path

/-- The parameters as the server sees them. -/
def Request.query (r : Request) : List (String × String) := r.target.query

/-- A response. -/
structure Response where
  /-- HTTP status code. -/
  code : Nat
  /-- The body. -/
  body : String
deriving DecidableEq, Inhabited, Repr

/-- The API server. -/
def apiServer : Interface where
  Request := Request
  Reply _ := Except String Response

/-! ## Refusals -/

/-- The standard phrase of a code of class 4xx or 5xx. -/
def reasonPhrase (code : Nat) : String :=
  match code with
  | 400 => "Bad Request"
  | 401 => "Unauthorized"
  | 402 => "Payment Required"
  | 403 => "Forbidden"
  | 404 => "Not Found"
  | 405 => "Method Not Allowed"
  | 406 => "Not Acceptable"
  | 407 => "Proxy Authentication Required"
  | 408 => "Request Timeout"
  | 409 => "Conflict"
  | 410 => "Gone"
  | 411 => "Length Required"
  | 412 => "Precondition Failed"
  | 413 => "Payload Too Large"
  | 414 => "URI Too Long"
  | 415 => "Unsupported Media Type"
  | 416 => "Range Not Satisfiable"
  | 417 => "Expectation Failed"
  | 418 => "I'm a teapot"
  | 421 => "Misdirected Request"
  | 422 => "Unprocessable Entity"
  | 423 => "Locked"
  | 424 => "Failed Dependency"
  | 425 => "Too Early"
  | 426 => "Upgrade Required"
  | 428 => "Precondition Required"
  | 429 => "Too Many Requests"
  | 431 => "Request Header Fields Too Large"
  | 451 => "Unavailable For Legal Reasons"
  | 500 => "Internal Server Error"
  | 501 => "Not Implemented"
  | 502 => "Bad Gateway"
  | 503 => "Service Unavailable"
  | 504 => "Gateway Timeout"
  | 505 => "HTTP Version Not Supported"
  | 506 => "Variant Also Negotiates"
  | 507 => "Insufficient Storage"
  | 508 => "Loop Detected"
  | 510 => "Not Extended"
  | 511 => "Network Authentication Required"
  | _ => "<unknown status code>"

/-- One more than the largest status code. -/
def codeBound : Nat := UInt16.size

/-- The members of a status that were read so far. -/
structure StatusMembers where
  /-- How the request ended. -/
  status : Option String := none
  /-- What went wrong, for people. -/
  message : Option String := none
  /-- What went wrong, for programs. -/
  reason : Option String := none
  /-- The HTTP status code. -/
  code : Option Nat := none

/-- A code. -/
def statusCode : Decoder Nat := (Decoder.integer 0 codeBound).map Int.toNat

/-- The status, if nothing that has to be there is missing. -/
def StatusMembers.status? (s : StatusMembers) : Except Stop Status :=
  match s.status, s.code with
  | some status, some code => .ok ⟨status, s.message.getD "", s.reason.getD "", code⟩
  | _, _ => .error .broken

/-- The decoder of a member of a status. -/
def StatusMembers.member (s : StatusMembers) : String → Option (Decoder StatusMembers)
  | "status" => Decoder.once s.status .text fun a => { s with status := some a }
  | "message" => Decoder.once s.message .text fun a => { s with message := some a }
  | "reason" => Decoder.once s.reason .text fun a => { s with reason := some a }
  | "code" => Decoder.once s.code statusCode fun a => { s with code := some a }
  | _ => none

/-- A status: a record with its code and its outcome, or a list of all four members. -/
def statusDecoder : Decoder Status
  | depth, .list items stop =>
    Text.Json.enter depth fun depth => do
      let (status, items) ← Decoder.nextItem .text none depth stop items
      let (message, items) ← Decoder.nextItem .text (some "") depth stop items
      let (reason, items) ← Decoder.nextItem .text (some "") depth stop items
      let (code, items) ← Decoder.nextItem statusCode none depth stop items
      Decoder.lastItem stop ⟨status, message, reason, code⟩ items
  | depth, x => do
    let s ← Decoder.members StatusMembers.member {} depth x
    s.status?

namespace Response

/-- The request was refused. -/
def isRefusal (r : Response) : Bool := 400 ≤ r.code && r.code < 600

/-- The status of a refusal whose body has none. -/
def madeUpStatus (r : Response) : Status where
  status := toString r.code ++ " " ++ reasonPhrase r.code
  message := Text.quoted r.body
  reason := "Failed to parse error data"
  code := r.code

/-- The status of a refusal. -/
def status (r : Response) : Status :=
  match Json.decode statusDecoder r.body with
  | .ok s => s
  | .error _ => r.madeUpStatus

/-- The body, unless the request was refused. -/
def check (r : Response) : Except ServerFailure String :=
  if r.isRefusal then .error (.api r.status) else .ok r.body

/-- Read a body. -/
def document {α : Type} (read : Decoder α) (body : String) : Except ServerFailure α :=
  match Json.decode read body with
  | .ok a => .ok a
  | .error _ => .error (.malformed "unexpected document")

end Response

/-! ## Asking -/

/-- Why a request is not made. -/
inductive Unsendable where
  /-- Its target is too long. -/
  | targetLength
  /-- Its target has a character that may not stand there. -/
  | targetCharacter
  /-- It is about one object without a name, so it would be about all objects. -/
  | nameless
deriving DecidableEq, Repr

/-- The wording of why a request is not made. -/
def Unsendable.message : Unsendable → String
  | .targetLength => "Failed to build request: failed to build request: uri too long"
  | .targetCharacter =>
    "Failed to build request: failed to build request: invalid uri character"
  | .nameless =>
    "Failed to build request: failed to validate request: A non-empty name is required"

/-- Ask the server. -/
def exchange (r : Request) : Program apiServer (Except ServerFailure Response) :=
  if !r.target.fits then .done (.error (.other Unsendable.targetLength.message))
  else if !r.target.isValid then .done (.error (.other Unsendable.targetCharacter.message))
  else
    (Program.request (I := apiServer) r).bind fun
      | .ok response => .done (.ok response)
      | .error detail => .done (.error (.other ("ServiceError: " ++ detail)))

/-- Ask the server for a body. -/
def fetch (r : Request) : Program apiServer (Except ServerFailure String) :=
  (exchange r).bind fun answer => .done (answer.bind Response.check)

/-- Ask the server for a body and read it. -/
def fetchDocument {α : Type} (r : Request) (read : Decoder α) :
    Program apiServer (Except ServerFailure α) :=
  (fetch r).bind fun answer => .done (answer.bind (Response.document read))

/-- Make a request about one object, which needs a name. -/
def aboutNamed {α : Type} (name : String) (p : Program apiServer (Except ServerFailure α)) :
    Program apiServer (Except ServerFailure α) :=
  if name.isEmpty then .done (.error (.other Unsendable.nameless.message)) else p

/-- The same with another wording of failures. -/
def rewording {α : Type} (f : ServerFailure → Error)
    (p : Program apiServer (Except ServerFailure α)) : Program apiServer (Except Error α) :=
  p.bind fun answer => .done (answer.mapError f)

end Reconciler.Cluster
