import Reconciler.Cluster.ListWatch

/-!
# What is asked of an error does not depend on its route

A failure of the Kubernetes client becomes an error on one of three routes, and errors are asked
four questions: whether someone else changed the object, whether it does not exist, whether the
version expired, and whether trying again may help. For the answers it does not matter whether the
object of the failure was named. The list and watch calls answer alike too, except about an answer
that could not be read: they take it for final, since the same call would read the same again, while
elsewhere the whole call is tried again.

No error says two of the first three things. A status that comes inside a watch stream tells of an
expired version exactly if it would as a refusal, and the stream delivers it so however its line was
read.

## Main definitions

* `Verdicts`, `Error.verdicts` : the four answers
* `Verdicts.ofCode?` : the answers by the HTTP code of a refusal

## Main results

* `Error.verdicts_ofServer`, `Error.verdicts_ofServerFor`, `Error.verdicts_ofSource` : the routes
* `Error.exclusive_verdicts` : one thing at a time
* `Error.isGone_ofInBand` : a status inside a watch stream
* `ServerFailure.judged_alike` : all of this for one failure
-/

namespace Reconciler

/-- The answers to what is asked of an error. -/
structure Verdicts where
  /-- Someone else changed the object. -/
  conflict : Bool
  /-- The object does not exist. -/
  notFound : Bool
  /-- The resource version expired. -/
  gone : Bool
  /-- Trying again may help. -/
  retryable : Bool
deriving DecidableEq, Repr

/-- No two of the first three are true. -/
def Verdicts.Exclusive (v : Verdicts) : Prop :=
  (v.conflict && v.notFound) = false ∧ (v.conflict && v.gone) = false ∧
    (v.notFound && v.gone) = false

/-- The answers about a refusal with a code. Without a code the request has not been refused and may
be made again. -/
def Verdicts.ofCode? : Option Nat → Verdicts
  | none => ⟨false, false, false, true⟩
  | some code =>
    ⟨code == 409, code == 404, code == 410, code == 409 || !(400 ≤ code && code < 500)⟩

namespace ServerFailure

/-- The HTTP code of a refusal. -/
def code? : ServerFailure → Option Nat
  | .api s => some s.code
  | _ => none

/-- The answer could not be read. -/
def isMalformed : ServerFailure → Bool
  | .malformed _ => true
  | _ => false

end ServerFailure

namespace Error

/-- What the error answers. -/
def verdicts (e : Error) : Verdicts := ⟨e.isConflict, e.isNotFound, e.isGone, e.isRetryable⟩

/-! ### The three routes -/

theorem verdicts_ofServer (f : ServerFailure) :
    (ofServer f).verdicts = Verdicts.ofCode? f.code? := by
  cases f with
  | api s => rfl
  | malformed detail => rfl
  | other detail => rfl

/-- An error that names its object has the answers of the code that it stands for. -/
theorem verdicts_ofServerFor (object : String) (f : ServerFailure) :
    (ofServerFor object f).verdicts = Verdicts.ofCode? f.code? := by
  cases f with
  | api s =>
    rw [ofServerFor]
    split
    case isTrue hmissing => simp [verdicts, Verdicts.ofCode?, ServerFailure.code?, hmissing,
      isConflict, isNotFound, isGone, isRetryable]
    case isFalse =>
      split
      case isTrue hchanged => simp [verdicts, Verdicts.ofCode?, ServerFailure.code?, hchanged,
        isConflict, isNotFound, isGone, isRetryable]
      case isFalse => rfl
  | malformed detail => rfl
  | other detail => rfl

/-- An unreadable answer to a list or watch call is final. -/
theorem verdicts_ofSource (f : ServerFailure) :
    (ofSource f).verdicts =
      if f.isMalformed then ⟨false, false, false, false⟩ else Verdicts.ofCode? f.code? := by
  cases f with
  | api s => rfl
  | malformed detail => rfl
  | other detail => rfl

/-! ### One thing at a time -/

/-- A code says one thing at most. -/
theorem exclusive_ofCode? (code? : Option Nat) : (Verdicts.ofCode? code?).Exclusive := by
  cases code? with
  | none => exact ⟨rfl, rfl, rfl⟩
  | some code =>
    simp only [Verdicts.Exclusive, Verdicts.ofCode?, Bool.and_eq_false_iff, beq_eq_false_iff_ne]
    omega

/-- So does every error, from wherever it comes. -/
theorem exclusive_verdicts (e : Error) : e.verdicts.Exclusive := by
  cases e with
  | server f =>
    rw [show Error.server f = ofServer f from rfl, verdicts_ofServer]
    exact exclusive_ofCode? f.code?
  | _ => exact ⟨rfl, rfl, rfl⟩

end Error

/-! ### Statuses inside a watch stream -/

/-- Any status tells of an expired version inside a stream exactly if it would as a refusal. -/
theorem Error.isGone_ofInBand (s : Status) :
    (ofInBand s).isGone = (ofServer (.api s)).isGone := rfl

/-- A line that announces a failure delivers the error of its status, whichever of its members came
first. -/
theorem Cluster.Announcement.delivery_failure (r : Cluster.Reading) (k : Kind) (depth : Nat)
    (x : Text.Json.Draft) :
    Cluster.Announcement.failure.delivery r k depth x =
      (Cluster.statusDecoder depth x).map fun s => .error (.ofInBand s) := rfl

example (k : Kind) :
    (Cluster.Announcement.failure.delivery .incoming k 128 (.record
      [(⟨"status", true, none⟩, .text ⟨"Failure", true, none⟩),
        (⟨"code", true, none⟩, .number "410" none)] none)) =
      .ok (.error (.ofInBand ⟨"Failure", "", "", 410⟩)) := by
  cbv

/-! ### One failure -/

/-- A failure of the client gets the answers of its code, and the same ones if it is told of an
object. Those of a list or watch call differ from them in one thing: there an unreadable answer is
final, while elsewhere trying again may help. No error says two things of a conflict, a missing
object and an expired version. Every status is an expired version inside a watch stream exactly if
it would be one as a refusal, and the lines of a stream deliver statuses in no other way. -/
theorem ServerFailure.judged_alike (f : ServerFailure) (object : String) :
    (Error.ofServer f).verdicts = Verdicts.ofCode? f.code? ∧
      (Error.ofServerFor object f).verdicts = (Error.ofServer f).verdicts ∧
      (Error.ofSource f).verdicts =
        (if f.isMalformed then ⟨false, false, false, false⟩ else (Error.ofServer f).verdicts) ∧
      (∀ e : Error, e.verdicts.Exclusive) ∧
      (∀ s : Status, (Error.ofInBand s).isGone = (Error.ofServer (.api s)).isGone) ∧
      ∀ r k depth x, Cluster.Announcement.failure.delivery r k depth x =
        (Cluster.statusDecoder depth x).map fun s => .error (.ofInBand s) := by
  refine ⟨Error.verdicts_ofServer f, ?_, ?_, Error.exclusive_verdicts, Error.isGone_ofInBand,
    Cluster.Announcement.delivery_failure⟩
  · rw [Error.verdicts_ofServerFor, Error.verdicts_ofServer]
  · rw [Error.verdicts_ofSource, Error.verdicts_ofServer]

namespace ServerFailure

/-- An answer that is no JSON. -/
def unreadable : ServerFailure := .malformed "expected ident at line 1 column 2"

/-- Trying again may help, unless it answers a list or watch call. -/
theorem unreadable_judged_differently :
    (Error.ofServer unreadable).isRetryable = true ∧
      (Error.ofServerFor "default/demo" unreadable).isRetryable = true ∧
      (Error.ofSource unreadable).isRetryable = false := by
  decide

end ServerFailure

end Reconciler
