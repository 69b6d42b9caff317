import Reconciler.Program
import Reconciler.Resource.Patch

/-!
# The patch protocol

A CRUD resource answers seven calls: read the current and the desired state, compute the patch of an
update or a delete pass, and apply the changes of a patch. `Ops` is such a resource as a value; the
type of each answer is `Call.Reply`. A whole pass is `Ops.reconcile`: both states, the patch from
exactly these states, then its changes in order, up to the first error.

Decorators and pipelines handle resources of many state and change types at once. `Ops.erase` embeds
the typed payloads into one payload type `P`; a payload of another type is refused before the typed
call is made. The protocol itself is one function for typed and erased ops.
-/

namespace Reconciler

/-- The seven calls of a CRUD resource with states `S` and changes `C`. -/
inductive Call (S C : Type) where
  /-- Read what exists. -/
  | getCurrent
  /-- Compute what should exist. -/
  | getDesired
  /-- Compute the changes of a pass. -/
  | newPatch (pass : Pass) (current desired : S)
  /-- Apply the change of a slot. -/
  | apply (slot : Slot) (change : C)
deriving DecidableEq, Repr

/-- What a call answers when it succeeds. -/
abbrev Call.Reply {S C : Type} : Call S C → Type
  | .getCurrent => S
  | .getDesired => S
  | .newPatch .. => Patch C
  | .apply .. => Unit

/-- The operation that a call is labelled with. -/
def Call.operation {S C : Type} : Call S C → Operation
  | .getCurrent => .getCurrentState
  | .getDesired => .getDesiredState
  | .newPatch .update _ _ => .newUpdatePatch
  | .newPatch .delete _ _ => .newDeletePatch
  | .apply .create _ => .applyCreateChange
  | .apply .delete _ => .applyDeleteChange
  | .apply .update _ => .applyUpdateChange

/-- A CRUD resource over objects `K`: its name and its answers. -/
structure Ops (I : Interface) (K S C : Type) where
  /-- Stable name. -/
  name : String
  /-- Answer a call for an object. -/
  perform : (c : Call S C) → K → Program I (Except Error c.Reply)

namespace Ops

variable {I : Interface} {K S C P : Type}

/-- Apply the changes of a patch in order. -/
def applyAll (ops : Ops I K S C) (patch : Patch C) (k : K) : Program I (Except Error Unit) :=
  Program.sequence (patch.changes.map fun c => ops.perform (.apply c.1 c.2) k)

/-- Run a whole pass over an object. -/
def reconcile (ops : Ops I K S C) (pass : Pass) (k : K) : Program I (Except Error Unit) :=
  (ops.perform .getCurrent k).andThen fun current =>
    (ops.perform .getDesired k).andThen fun desired =>
      (ops.perform (.newPatch pass current desired) k).andThen fun patch => ops.applyAll patch k

end Ops

/-- How a type `T` is embedded into the payload type `P`. -/
structure Embedding (P T : Type) where
  /-- What `T` is called in messages. -/
  typeName : String
  /-- Embed a value. -/
  inject : T → P
  /-- Recover a value, if the payload holds one. -/
  project? : P → Option T
  /-- What was embedded is recovered. -/
  project?_inject : ∀ t, project? (inject t) = some t

namespace Ops

variable {I : Interface} {K S C P : Type}

/-- Refuse a payload that is not of the type the resource owns. -/
def refuse {α T : Type} (ops : Ops I K S C) (what : String) (e : Embedding P T) :
    Program I (Except Error α) :=
  .done (.error (.typeMismatch ops.name (what ++ " is not a " ++ e.typeName)))

/-- What the change of a slot is called in messages. -/
def changeLabel : Slot → String
  | .create => "create change"
  | .delete => "delete change"
  | .update => "update change"

/-- The same resource with states and changes embedded into one payload type. The current state is
checked before the desired one. -/
def erase (state : Embedding P S) (change : Embedding P C) (ops : Ops I K S C) : Ops I K P P where
  name := ops.name
  perform
    | .getCurrent, k => (ops.perform .getCurrent k).andThen fun s => .done (.ok (state.inject s))
    | .getDesired, k => (ops.perform .getDesired k).andThen fun s => .done (.ok (state.inject s))
    | .newPatch pass current desired, k =>
      match state.project? current with
      | none => ops.refuse "current state" state
      | some c =>
        match state.project? desired with
        | none => ops.refuse "desired state" state
        | some d =>
          (ops.perform (.newPatch pass c d) k).andThen fun patch =>
            .done (.ok (patch.map change.inject))
    | .apply slot payload, k =>
      match change.project? payload with
      | none => ops.refuse (changeLabel slot) change
      | some c => ops.perform (.apply slot c) k

end Ops

/-- A CRUD resource that is fit for use: it has a name. -/
structure Crud (I : Interface) (K P : Type) where
  /-- Its erased calls. -/
  ops : Ops I K P P
  /-- The name is not empty. -/
  name_ne : ops.name ≠ ""

namespace Crud

variable {I : Interface} {K P : Type}

/-- Accept ops that have a name. -/
def ofOps (ops : Ops I K P P) : Except Error (Crud I K P) :=
  if h : ops.name ≠ "" then .ok ⟨ops, h⟩
  else .error (.invalidConfig "crud resource" "ops name must not be empty")

/-- The resource in the notation of diagnostics. -/
def debugText (c : Crud I K P) : String :=
  "CrudResource \x7b name: " ++ Text.quoted c.ops.name ++ " \x7d"

end Crud

end Reconciler
