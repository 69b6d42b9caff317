import Reconciler.Text.Quoted

/-!
# Patches

What comparing current and desired state yields: up to three independent changes, one per slot. The
changes of a patch are applied in the order of `Patch.changes`: create, delete, update. An empty
patch applies nothing.
-/

namespace Reconciler

/-- The three places a change can stand in. -/
inductive Slot where
  /-- Applied first. -/
  | create
  /-- Applied second. -/
  | delete
  /-- Applied last. -/
  | update
deriving DecidableEq, Inhabited, Repr

/-- Up to three changes. -/
structure Patch (C : Type) where
  /-- Change that creates. -/
  create : Option C := none
  /-- Change that deletes. -/
  delete : Option C := none
  /-- Change that updates. -/
  update : Option C := none
deriving DecidableEq, Inhabited, Repr

namespace Patch

variable {C D : Type}

/-- Set the change in a slot. -/
def set (p : Patch C) (slot : Slot) (c : C) : Patch C :=
  match slot with
  | .create => { p with create := some c }
  | .delete => { p with delete := some c }
  | .update => { p with update := some c }

/-- The change in a slot. -/
def get? (p : Patch C) : Slot → Option C
  | .create => p.create
  | .delete => p.delete
  | .update => p.update

/-- No change is set. -/
def isEmpty (p : Patch C) : Bool := p.create.isNone && p.delete.isNone && p.update.isNone

/-- Convert every change that is set. -/
def map (f : C → D) (p : Patch C) : Patch D where
  create := p.create.map f
  delete := p.delete.map f
  update := p.update.map f

/-- The changes that are set, in the order in which they are applied. -/
def changes (p : Patch C) : List (Slot × C) :=
  (p.create.map (Slot.create, ·)).toList ++ (p.delete.map (Slot.delete, ·)).toList ++
    (p.update.map (Slot.update, ·)).toList

/-- Set changes one after the other. -/
def ofChanges (cs : List (Slot × C)) : Patch C :=
  cs.foldl (fun p c => p.set c.1 c.2) {}

/-- Convert every change that is set, told its number in the order of application, from 1. -/
def mapNumbered (f : Nat → C → D) (p : Patch C) : Patch D :=
  ofChanges (p.changes.zipIdx.map fun c => (c.1.1, f (c.2 + 1) c.1.2))

/-- The patch in the notation of diagnostics. -/
def debugText (p : Patch String) : String :=
  "Patch \x7b create: " ++ Text.quotedOption p.create ++ ", delete: " ++
    Text.quotedOption p.delete ++ ", update: " ++ Text.quotedOption p.update ++ " \x7d"

end Patch

end Reconciler
