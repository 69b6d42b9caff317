import Reconciler.Informer.Machine

/-!
# The streams of an informer

Three bounded channels lead from an informer to its consumer. A channel that is full makes the
sender wait; one whose receiver is gone takes nothing any more. `Outlets.take?` is the order in
which a controller consumes them: deletions before updates, and errors when there is neither.
-/

namespace Reconciler

/-- A bounded queue with one receiver. -/
structure Channel (α : Type) where
  /-- How many items it holds. -/
  capacity : Nat
  /-- Items sent and not yet taken, oldest first. -/
  items : List α := []
  /-- The receiver is there. -/
  received : Bool := true
deriving Inhabited, Repr

/-- What became of an item that was offered, with what now holds it. -/
inductive Offer (γ : Type) where
  /-- It waits to be taken. -/
  | sent (holder : γ)
  /-- There is no room yet. -/
  | full
  /-- Nobody will ever take it. -/
  | discarded

/-- The same outcome seen from something larger. -/
def Offer.map {γ δ : Type} (f : γ → δ) : Offer γ → Offer δ
  | sent holder => .sent (f holder)
  | full => .full
  | discarded => .discarded

theorem Offer.exists_of_map {γ δ : Type} {f : γ → δ} {o : Offer γ} {d : δ}
    (h : o.map f = .sent d) : ∃ holder, o = .sent holder ∧ f holder = d := by
  cases o with
  | sent holder =>
    cases h
    exact ⟨holder, rfl, rfl⟩
  | full => cases h
  | discarded => cases h

namespace Channel

variable {α : Type}

/-- Offer an item. -/
def offer (c : Channel α) (a : α) : Offer (Channel α) :=
  if !c.received then .discarded
  else if c.items.length < c.capacity then .sent { c with items := c.items ++ [a] }
  else .full

/-- Take the oldest item. -/
def take? (c : Channel α) : Option (α × Channel α) :=
  match c.items with
  | [] => none
  | a :: rest => some (a, { c with items := rest })

/-- Drop the receiver, and with it what it has not taken. -/
def abandon (c : Channel α) : Channel α := { c with items := [], received := false }

theorem items_of_offer {c c' : Channel α} {a : α} (h : c.offer a = .sent c') :
    c'.items = c.items ++ [a] := by
  rw [offer] at h
  split at h
  · cases h
  · split at h
    · cases h
      rfl
    · cases h

theorem items_of_take? {c c' : Channel α} {a : α} (h : c.take? = some (a, c')) :
    c.items = a :: c'.items := by
  rw [take?] at h
  split at h
  · cases h
  · cases h
    assumption

theorem items_of_take?_eq_none {c : Channel α} (h : c.take? = none) : c.items = [] := by
  rw [take?] at h
  split at h
  · assumption
  · cases h

end Channel

/-- What a consumer receives. -/
inductive Received (β : Type) where
  /-- An object that is being deleted or is gone. -/
  | deletion (o : Object β)
  /-- An object that was created or changed. -/
  | change (o : Object β)
  /-- A failure of the list or watch calls. -/
  | failure (e : Error)
deriving DecidableEq

/-- The stream that an item came on. -/
def Received.stream {β : Type} : Received β → Stream
  | .deletion _ => .delete
  | .change _ => .update
  | .failure _ => .error

/-- What came on a stream. -/
def onStream {β : Type} (s : Stream) (items : List (Received β)) : List (Received β) :=
  items.filter fun item => item.stream = s

@[simp] theorem onStream_nil {β : Type} (s : Stream) : onStream s ([] : List (Received β)) = [] :=
  rfl

@[simp] theorem onStream_append {β : Type} (s : Stream) (xs ys : List (Received β)) :
    onStream s (xs ++ ys) = onStream s xs ++ onStream s ys :=
  List.filter_append ..

/-- The three channels. -/
structure Outlets (β : Type) where
  /-- Created and changed objects. -/
  updates : Channel (Object β)
  /-- Deleted objects. -/
  deletes : Channel (Object β)
  /-- Failures. -/
  errors : Channel Error

namespace Outlets

variable {β : Type}

/-- Three empty channels. -/
def ofCapacity (n : Nat) : Outlets β := ⟨{ capacity := n }, { capacity := n }, { capacity := n }⟩

/-- Offer an object on the stream of its route. -/
def send (out : Outlets β) (o : Object β) : Route → Offer (Outlets β)
  | .update => (out.updates.offer o).map fun c => { out with updates := c }
  | .delete => (out.deletes.offer o).map fun c => { out with deletes := c }

/-- Offer an error. -/
def report (out : Outlets β) (e : Error) : Offer (Outlets β) :=
  (out.errors.offer e).map fun c => { out with errors := c }

/-- Take what is to be handled next: deletions first, then updates, then errors. -/
def take? (out : Outlets β) : Option (Received β × Outlets β) :=
  match out.deletes.take? with
  | some (o, c) => some (.deletion o, { out with deletes := c })
  | none =>
    match out.updates.take? with
    | some (o, c) => some (.change o, { out with updates := c })
    | none =>
      match out.errors.take? with
      | some (e, c) => some (.failure e, { out with errors := c })
      | none => none

/-- Take the next item of one stream. -/
def takeFrom? (out : Outlets β) : Stream → Option (Received β × Outlets β)
  | .delete => out.deletes.take?.map fun r => (.deletion r.1, { out with deletes := r.2 })
  | .update => out.updates.take?.map fun r => (.change r.1, { out with updates := r.2 })
  | .error => out.errors.take?.map fun r => (.failure r.1, { out with errors := r.2 })

/-- What waits to be taken from a stream, oldest first. -/
def waiting (out : Outlets β) : Stream → List (Received β)
  | .delete => out.deletes.items.map .deletion
  | .update => out.updates.items.map .change
  | .error => out.errors.items.map .failure

/-- Drop the receiver of one stream. -/
def abandon (out : Outlets β) : Stream → Outlets β
  | .delete => { out with deletes := out.deletes.abandon }
  | .update => { out with updates := out.updates.abandon }
  | .error => { out with errors := out.errors.abandon }

/-- Somebody receives the stream. -/
def isReceived (out : Outlets β) : Stream → Bool
  | .delete => out.deletes.received
  | .update => out.updates.received
  | .error => out.errors.received

end Outlets

end Reconciler
