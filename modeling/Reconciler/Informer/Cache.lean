import Reconciler.Object

/-!
# The cache of an informer

For every tracked object the cache keeps the version last observed and whether that observation
belonged to the delete stream. That is enough to tell news from a repetition, and to know whether a
removal was announced before.

`Cache.get?` is what the cache knows of a key. `get?_put`, `get?_erase` and `get?_retain` say what
each operation does to it.
-/

namespace Reconciler

/-- What was last observed of an object. -/
structure Cache.Entry where
  /-- The version. -/
  version : String
  /-- The object was being deleted. -/
  deleting : Bool
deriving DecidableEq, Inhabited, Repr

/-- What was last observed, by object key. -/
structure Cache where
  /-- Entries; no key occurs twice. -/
  entries : List (String × Cache.Entry) := []
deriving DecidableEq, Inhabited, Repr

/-- Where an object is to be delivered. -/
inductive Route where
  /-- On the stream of created and changed objects. -/
  | update
  /-- On the stream of deleted objects. -/
  | delete
deriving DecidableEq, Inhabited, Repr

namespace Cache

variable {β : Type}

/-- The entry of a key. -/
def get? (c : Cache) (key : String) : Option Entry := c.entries.lookup key

/-- Set the entry of a key. -/
def put (c : Cache) (key : String) (e : Entry) : Cache :=
  ⟨(key, e) :: c.entries.filter fun x => x.1 != key⟩

/-- Drop the entry of a key. -/
def erase (c : Cache) (key : String) : Cache := ⟨c.entries.filter fun x => x.1 != key⟩

/-- Number of tracked objects. -/
def size (c : Cache) : Nat := c.entries.length

/-- Nothing is tracked. -/
def isEmpty (c : Cache) : Bool := c.entries.isEmpty

end Cache

/-- The stream an object belongs to by its deletion timestamp. -/
def Object.route {β : Type} (o : Object β) : Route := if o.isDeleting then .delete else .update

namespace Cache

variable {β : Type}

/-- The object was observed before, at this very version. Objects without a version are always
news. -/
def knows (c : Cache) (o : Object β) : Bool :=
  o.version != "" && (c.get? o.key).any fun e => e.version == o.version

/-- Take note of an object that exists. The answer is the stream it belongs to, or nothing if it was
known. -/
def observe (c : Cache) (o : Object β) : Option Route × Cache :=
  if c.knows o then (none, c) else (some o.route, c.put o.key ⟨o.version, o.isDeleting⟩)

/-- Forget an object that was removed. The answer is whether its removal is news, which it is not if
the object was last observed while being deleted. -/
def remove (c : Cache) (o : Object β) : Bool × Cache :=
  (!(c.get? o.key).any (·.deleting), c.erase o.key)

/-- Forget all objects but those with the given keys. The answer is how many were forgotten. -/
def retain (c : Cache) (keys : List String) : Nat × Cache :=
  let kept := c.entries.filter fun x => keys.contains x.1
  (c.entries.length - kept.length, ⟨kept⟩)

/-! ## What the operations do to an entry -/

theorem lookup_filter_ne {α : Type} (l : List (String × α)) (key k : String) :
    (l.filter fun x => x.1 != key).lookup k = if k = key then none else l.lookup k := by
  induction l with
  | nil => simp
  | cons x l ih =>
    obtain ⟨x, a⟩ := x
    by_cases hx : x = key <;> by_cases hk : k = x <;> grind

@[simp] theorem get?_put (c : Cache) (key : String) (e : Entry) (k : String) :
    (c.put key e).get? k = if k = key then some e else c.get? k := by
  simp only [get?, put, List.lookup_cons, lookup_filter_ne]
  by_cases h : k = key <;> grind

@[simp] theorem get?_erase (c : Cache) (key k : String) :
    (c.erase key).get? k = if k = key then none else c.get? k :=
  lookup_filter_ne c.entries key k

@[simp] theorem get?_retain (c : Cache) (keys : List String) (k : String) :
    (c.retain keys).2.get? k = if keys.contains k then c.get? k else none := by
  simp only [retain, get?]
  induction c.entries with
  | nil => simp
  | cons x l ih =>
    obtain ⟨x, a⟩ := x
    by_cases hx : keys.contains x <;> by_cases hk : k = x <;> grind

end Cache

end Reconciler
