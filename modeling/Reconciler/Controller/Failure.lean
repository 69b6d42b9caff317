import Reconciler.Error
import Reconciler.Pass

/-!
# Failures as events

A failed pass is reported as an event on the object it was about: which pass failed, at which
resource, and why. The server accepts notes of at most `maxNoteBytes` bytes of UTF-8, so a longer
note is cut on a character boundary and ends in an ellipsis.
-/

namespace Reconciler

/-- Why a pass failed. -/
inductive FailureReason where
  /-- A resource, or the finalizer, failed in an update pass. -/
  | reconcileFailed
  /-- A resource, or the finalizer, failed in a delete pass. -/
  | deleteFailed
  /-- Several resource sets handle the object, so none ran. -/
  | ambiguousResourceSet
deriving DecidableEq, Inhabited, Repr

/-- Label of a reason. -/
def FailureReason.label : FailureReason → String
  | .reconcileFailed => "ReconcileFailed"
  | .deleteFailed => "DeleteFailed"
  | .ambiguousResourceSet => "AmbiguousResourceSet"

/-- The reason of a pass that failed while it ran. -/
def FailureReason.ofPass : Pass → FailureReason
  | .update => .reconcileFailed
  | .delete => .deleteFailed

/-- A failed pass. -/
structure Failure where
  /-- Which pass. -/
  pass : Pass
  /-- Why, in one word. -/
  reason : FailureReason
  /-- The resource that failed, if the error names one. -/
  resource : Option String
  /-- Wording of the error. -/
  message : String
deriving DecidableEq, Inhabited, Repr

/-- Size limit of a note, in bytes. -/
def maxNoteBytes : Nat := 1024

/-- What stands in for the rest of a note that was cut. -/
def ellipsis : Char := '…'

/-- The last character boundary of `s` that is not after a byte offset. It is searched for from the
offset back, byte by byte; at the latest the start is one. -/
def lastBoundary (s : String) : (offset : Nat) → s.Pos
  | 0 => s.startPos
  | offset + 1 =>
    if h : String.Pos.Raw.IsValid s ⟨offset + 1⟩ then s.pos ⟨offset + 1⟩ h
    else lastBoundary s offset

/-- A text cut to the size limit of notes. -/
def cutNote (s : String) : String :=
  if s.utf8ByteSize ≤ maxNoteBytes then s
  else (s.sliceTo (lastBoundary s (maxNoteBytes - ellipsis.utf8Size))).copy.push ellipsis

namespace Failure

/-- The failure of a pass by an error. -/
def ofError (pass : Pass) (reason : FailureReason) (e : Error) : Failure where
  pass := pass
  reason := reason
  resource := e.resourceName?
  message := e.message

/-- The pass as an action. -/
def action (f : Failure) : String :=
  match f.pass with
  | .update => "Reconcile"
  | .delete => "Delete"

/-- The whole text of the note. -/
def fullNote (f : Failure) : String :=
  match f.resource with
  | some r => f.pass.label ++ " pass failed at " ++ r ++ ": " ++ f.message
  | none => f.pass.label ++ " pass failed: " ++ f.message

/-- The note, cut to its limit. -/
def note (f : Failure) : String := cutNote f.fullNote

end Failure

/-- An event as the server records it. -/
structure Event where
  /-- Severity. -/
  type : String
  /-- Cause in one word. -/
  reason : String
  /-- Description for people. -/
  note : Option String
  /-- What was being done. -/
  action : String
  /-- Another object involved, as its name. -/
  secondary : Option String := none
deriving DecidableEq, Inhabited, Repr

/-- The warning that reports a failure. -/
def Failure.toEvent (f : Failure) : Event where
  type := "Warning"
  reason := f.reason.label
  note := some f.note
  action := f.action

end Reconciler
