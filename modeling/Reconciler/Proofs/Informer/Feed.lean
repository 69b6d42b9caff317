import Reconciler.Informer.Outlets
import Reconciler.Proofs.Informer.Loop

/-!
# An informer and its three streams

An item leaves the loop of an informer when the channel of its stream has room for it, and waits
there until it is taken. A `Feed` is an informer with its channels, as it is for a consumer that
never goes away.

Whoever takes by `Outlets.take?` takes the oldest item of a stream, and from a stream only if
nothing waits on those that precede it.

## Main definitions

* `Occurrence.received?` : the item that was sent, if that is what happened
* `Feed`, `Feed.Step` : an informer with its channels, and what can happen in it
* `Stream.Precedes`, `Outlets.Next` : which stream is taken from first, and which item is the next

## Main results

* `Feed.Step.waiting` : what happens adds to the streams what was sent
* `Outlets.next_of_take?` : what is taken is the next item
-/

namespace Reconciler

open Informer (Loop Occurrence)

variable {β : Type}

/-- The first stream is taken from before the second. -/
inductive Stream.Precedes : Stream → Stream → Prop where
  /-- Deletions come before updates. -/
  | delete_update : Precedes .delete .update
  /-- Deletions come before errors. -/
  | delete_error : Precedes .delete .error
  /-- Updates come before errors. -/
  | update_error : Precedes .update .error

/-! ### Sending -/

/-- The item that an output sends. -/
def Informer.Output.received? : Informer.Output β → Option (Received β)
  | .send .update o => some (.change o)
  | .send .delete o => some (.deletion o)
  | .report e => some (.failure e)
  | _ => none

/-- The item that was sent, if that is what happened. -/
def Informer.Occurrence.received? : Occurrence β → Option (Received β)
  | .carried out => out.received?
  | .took .. => none

/-- The streams after something happened in the informer, if it can happen. -/
def Outlets.after (out : Outlets β) : Occurrence β → Offer (Outlets β)
  | .carried (.send route o) => out.send o route
  | .carried (.report e) => out.report e
  | _ => .sent out

@[simp] theorem received?_change (o : Object β) :
    (Occurrence.carried (.send .update o)).received? = some (.change o) := rfl

@[simp] theorem received?_deletion (o : Object β) :
    (Occurrence.carried (.send .delete o)).received? = some (.deletion o) := rfl

@[simp] theorem received?_failure (e : Error) :
    (Occurrence.carried (.report e : Informer.Output β)).received? = some (.failure e) := rfl

namespace Outlets

variable {out out' : Outlets β} {item : Received β}

/-- What was sent waits behind what waited before. -/
theorem waiting_after {o : Occurrence β} (h : out.after o = .sent out') (s : Stream) :
    out'.waiting s = out.waiting s ++ onStream s o.received?.toList := by
  have hquiet (hsame : Offer.sent out = .sent out') (hnone : o.received? = none) :
      out'.waiting s = out.waiting s ++ onStream s o.received?.toList := by
    cases hsame
    simp [hnone]
  cases o with
  | took t phase i => exact hquiet h rfl
  | carried output =>
    cases output with
    | send route o =>
      cases route with
      | update =>
        obtain ⟨c, hoffer, rfl⟩ := Offer.exists_of_map h
        cases s <;> simp [waiting, Channel.items_of_offer hoffer, onStream, Received.stream]
      | delete =>
        obtain ⟨c, hoffer, rfl⟩ := Offer.exists_of_map h
        cases s <;> simp [waiting, Channel.items_of_offer hoffer, onStream, Received.stream]
    | report e =>
      obtain ⟨c, hoffer, rfl⟩ := Offer.exists_of_map h
      cases s <;> simp [waiting, Channel.items_of_offer hoffer, onStream, Received.stream]
    | _ => exact hquiet h rfl

/-! ### Taking -/

/-- How an item can be the next one: it is the oldest of its stream, and nothing waits on the
streams that are taken from before. -/
inductive Next (out : Outlets β) : Received β → Outlets β → Prop where
  /-- Deletions come first. -/
  | deletion {o : Object β} {c : Channel (Object β)} (h : out.deletes.items = o :: c.items) :
      Next out (.deletion o) { out with deletes := c }
  /-- Then come updates. -/
  | change {o : Object β} {c : Channel (Object β)} (hdeletes : out.deletes.items = [])
      (h : out.updates.items = o :: c.items) : Next out (.change o) { out with updates := c }
  /-- Errors come last. -/
  | failure {e : Error} {c : Channel Error} (hdeletes : out.deletes.items = [])
      (hupdates : out.updates.items = []) (h : out.errors.items = e :: c.items) :
      Next out (.failure e) { out with errors := c }

theorem next_of_take? (h : out.take? = some (item, out')) : out.Next item out' := by
  rw [take?] at h
  split at h
  case h_1 o c hdelete =>
    cases h
    exact .deletion (Channel.items_of_take? hdelete)
  case h_2 hdelete =>
    have hdeletes := Channel.items_of_take?_eq_none hdelete
    split at h
    case h_1 o c hupdate =>
      cases h
      exact .change hdeletes (Channel.items_of_take? hupdate)
    case h_2 hupdate =>
      have hupdates := Channel.items_of_take?_eq_none hupdate
      split at h
      case h_1 e c herror =>
        cases h
        exact .failure hdeletes hupdates (Channel.items_of_take? herror)
      case h_2 => cases h

/-- Nothing is taken only if nothing waits. -/
theorem waiting_of_take?_eq_none (h : out.take? = none) (s : Stream) : out.waiting s = [] := by
  rw [take?] at h
  split at h
  case h_1 => cases h
  case h_2 hdelete =>
    split at h
    case h_1 => cases h
    case h_2 hupdate =>
      split at h
      case h_1 => cases h
      case h_2 herror =>
        cases s <;> simp [waiting, Channel.items_of_take?_eq_none, hdelete, hupdate, herror]

/-- What is taken was the oldest item of its stream. -/
theorem Next.waiting (h : out.Next item out') (s : Stream) :
    out.waiting s = onStream s [item] ++ out'.waiting s := by
  cases h with
  | deletion h => cases s <;> simp [Outlets.waiting, h, onStream, Received.stream]
  | change _ h => cases s <;> simp [Outlets.waiting, h, onStream, Received.stream]
  | failure _ _ h => cases s <;> simp [Outlets.waiting, h, onStream, Received.stream]

/-- And nothing waited on the streams that are taken from before. -/
theorem Next.waiting_of_precedes (h : out.Next item out') {s : Stream}
    (hs : s.Precedes item.stream) : out.waiting s = [] := by
  cases h with
  | deletion _ => cases hs
  | change hdeletes _ =>
    cases hs
    simp [Outlets.waiting, hdeletes]
  | failure hdeletes hupdates _ =>
    cases hs
    · simp [Outlets.waiting, hdeletes]
    · simp [Outlets.waiting, hupdates]

end Outlets

/-! ### Both together -/

/-- An informer at work with its channels. -/
structure Feed (β : Type) where
  /-- The informer. -/
  loop : Loop β
  /-- Its channels. -/
  outlets : Outlets β
  /-- It was taken down by one of its calls. -/
  crashed : Bool := false

namespace Feed

variable {f f' : Feed β} {o : Occurrence β} {cancelled : Bool}

/-- The informer as it starts, with empty channels. -/
def start (config : Informer.Config) (now : Duration) : Feed β :=
  { loop := .start config now, outlets := .ofCapacity config.capacity }

/-- Something happens in the informer. What it sends must have room, and it stops only if it was
cancelled. -/
structure Step (cancelled : Bool) (f : Feed β) (o : Occurrence β) (f' : Feed β) : Prop where
  alive : f.crashed = false
  loop : Loop.Step f.loop f'.loop
  past : f'.loop.past = f.loop.past ++ [o]
  outlets : f.outlets.after o = .sent f'.outlets
  cancelled : (∃ t phase, o = .took t phase .cancelled) → cancelled = true
  crashed : f'.crashed = false

/-- What happens adds to the streams what was sent. -/
theorem Step.waiting (h : f.Step cancelled o f') (s : Stream) :
    f'.outlets.waiting s = f.outlets.waiting s ++ onStream s o.received?.toList :=
  Outlets.waiting_after h.outlets s

/-- What is wanted next is carried out if there is room for it. -/
theorem step_carry {out : Informer.Output β} {rest : List (Informer.Output β)} {outlets : Outlets β}
    (halive : f.crashed = false) (hp : f.loop.pending = out :: rest)
    (hout : f.outlets.after (.carried out) = .sent outlets) :
    f.Step cancelled (.carried out)
      { loop := { f.loop with pending := rest, past := f.loop.past ++ [.carried out] }
        outlets := outlets } where
  alive := halive
  loop := .carry hp
  past := rfl
  outlets := hout
  cancelled := by rintro ⟨t, phase, ⟨⟩⟩
  crashed := rfl

/-- What the machine waits for can happen. -/
theorem step_take (halive : f.crashed = false) (t : Informer.Instant) {i : Informer.Input β}
    (hi : i ≠ .cancelled) (hp : f.loop.pending = []) (ht : f.loop.now ≤ t.time)
    (hawaits : f.loop.machine.Awaits t.time i) :
    f.Step cancelled (.took t f.loop.machine.phase i) { f with loop := f.loop.take t i } where
  alive := halive
  loop := .take t i hp ht hawaits
  past := rfl
  outlets := rfl
  cancelled := by
    rintro ⟨t', phase, heq⟩
    cases heq
    exact absurd rfl hi
  crashed := halive

@[simp] theorem waiting_start (config : Informer.Config) (now : Duration) (s : Stream) :
    (start config now : Feed β).outlets.waiting s = [] := by
  cases s <;> rfl

end Feed

end Reconciler
