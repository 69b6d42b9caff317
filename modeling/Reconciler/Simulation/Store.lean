import Reconciler.Controller.Client

/-!
# A store of objects

Objects by key, with the compare-and-swap replace of the API server: a copy is stored only if it
carries the version that is stored, and storing counts the version up. A script can let reads and
writes fail, and can let others write right after a read.
-/

namespace Reconciler.Simulation

/-- A call that was made. -/
inductive StoreCall where
  /-- A read. -/
  | get (namespaceName : Option String) (name : String)
  /-- A write: the key, the version and the finalizers of the copy. -/
  | replace (key : String) (version : Option String) (finalizers : List String)
deriving DecidableEq, Repr

/-- A write by someone else. -/
inductive StoreWrite (β : Type) where
  /-- Store an object as it is. -/
  | put (o : Object β)
  /-- Remove an object. -/
  | drop (key : String)

/-- The stored objects and the script. -/
structure Store (β : Type) where
  /-- The objects by key; no key occurs twice. -/
  objects : List (String × Object β) := []
  /-- For each of the next reads the error it fails with, if any. -/
  getFaults : List (Option Error) := []
  /-- For each of the next writes the error it fails with, if any. -/
  replaceFaults : List (Option Error) := []
  /-- What others write right after the next reads. -/
  afterGet : List (StoreWrite β) := []
  /-- The calls so far, newest first. -/
  calls : List StoreCall := []

namespace Store

variable {β : Type}

/-- The stored copy under a key. -/
def find? (s : Store β) (key : String) : Option (Object β) := s.objects.lookup key

/-- Store an object as it is. -/
def put (s : Store β) (o : Object β) : Store β :=
  { s with objects := (o.key, o) :: s.objects.filter fun x => x.1 != o.key }

/-- Remove an object. -/
def drop (s : Store β) (key : String) : Store β :=
  { s with objects := s.objects.filter fun x => x.1 != key }

/-- Carry out a write by someone else. -/
def write (s : Store β) : StoreWrite β → Store β
  | .put o => s.put o
  | .drop key => s.drop key

/-- Decimal value of a text of digits below `2 ^ 64`, perhaps after a plus sign. -/
def decimal? (s : String) : Option Nat :=
  let digits := if s.toList.head? = some '+' then s.toList.drop 1 else s.toList
  if digits.isEmpty || !digits.all Char.isDigit then none
  else
    let n := digits.foldl (fun n c => 10 * n + (c.toNat - '0'.toNat)) 0
    if n < UInt64.size then some n else none

/-- The version after a version. -/
def successor (version : Option String) : String :=
  toString (((version.bind decimal?).getD 0) + 1)

/-- Read an object. -/
def get (s : Store β) (namespaceName : Option String) (name : String) :
    Except Error (Object β) × Store β :=
  let s := { s with calls := .get namespaceName name :: s.calls }
  let fault := s.getFaults.head?.join
  let s := { s with getFaults := s.getFaults.drop 1 }
  match fault with
  | some e => (.error e, s)
  | none =>
    let key := objectKey namespaceName name
    let copy := s.find? key
    let s :=
      match s.afterGet with
      | w :: rest => { s with afterGet := rest }.write w
      | [] => s
    match copy with
    | some o => (.ok o, s)
    | none => (.error (.notFound key), s)

/-- Replace an object by compare and swap. -/
def replace (s : Store β) (o : Object β) : Except Error (Object β) × Store β :=
  let s :=
    { s with calls := .replace o.key o.metadata.resourceVersion o.finalizers :: s.calls }
  let fault := s.replaceFaults.head?.join
  let s := { s with replaceFaults := s.replaceFaults.drop 1 }
  match fault with
  | some e => (.error e, s)
  | none =>
    match s.find? o.key with
    | none => (.error (.notFound o.key), s)
    | some stored =>
      if stored.metadata.resourceVersion = o.metadata.resourceVersion then
        let o' : Object β :=
          { o with
            metadata :=
              { o.metadata with
                resourceVersion := some (successor stored.metadata.resourceVersion) } }
        (.ok o', s.put o')
      else (.error (.conflict o.key), s)

/-- Answer an object client's question. -/
def answer (q : ObjectRequest β) (s : Store β) : Except Error (Object β) × Store β :=
  match q with
  | .get namespaceName name => s.get namespaceName name
  | .replace o => s.replace o

end Store

/-- A change of the store or its script. -/
inductive StoreCommand (β : Type) where
  /-- Write as someone else. -/
  | write (w : StoreWrite β)
  /-- Append to the script of reads. -/
  | failGets (faults : List (Option Error))
  /-- Append to the script of writes. -/
  | failReplaces (faults : List (Option Error))
  /-- Append to what others write after reads. -/
  | writeAfterGets (writes : List (StoreWrite β))

/-- Carry out a change. -/
def Store.apply {β : Type} (s : Store β) : StoreCommand β → Store β
  | .write w => s.write w
  | .failGets faults => { s with getFaults := s.getFaults ++ faults }
  | .failReplaces faults => { s with replaceFaults := s.replaceFaults ++ faults }
  | .writeAfterGets writes => { s with afterGet := s.afterGet ++ writes }

/-- An object given in full, or by the key of its stored copy. -/
inductive Target (β : Type) where
  /-- This object. -/
  | inline (o : Object β)
  /-- The stored copy. -/
  | stored (key : String)

/-- The object that is meant. -/
def Store.target? {β : Type} (s : Store β) : Target β → Option (Object β)
  | .inline o => some o
  | .stored key => s.find? key

end Reconciler.Simulation
