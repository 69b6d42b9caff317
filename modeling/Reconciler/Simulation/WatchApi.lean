import Reconciler.Informer.Machine

/-!
# A list and watch API that answers by script

The script says what the next lists return, which calls fail, which never return, and what each
watch stream yields. Streams are numbered in the order in which they were queued; a watch call opens
the oldest queued stream, or one that stays silent for ever.
-/

namespace Reconciler.Simulation

/-- A call that was made. -/
inductive ApiCall where
  /-- A list call. -/
  | list
  /-- A watch call from a version. -/
  | watch (version : String)
deriving DecidableEq, Repr

/-- Whether somebody reads a stream. -/
inductive Reader where
  /-- Not yet. -/
  | expected
  /-- Now. -/
  | present
  /-- No longer. -/
  | gone
deriving DecidableEq, Repr

/-- A watch stream. -/
structure WatchStream (β : Type) where
  /-- What it yields, oldest first. -/
  items : List (Except Error (WatchEvent β)) := []
  /-- It ends after these items. -/
  ended : Bool := false
  /-- Who reads it. -/
  reader : Reader := .expected

/-- The script and what happened so far. -/
structure WatchApi (β : Type) where
  /-- What list calls return. -/
  contents : ObjectList β := ⟨[], ""⟩
  /-- Errors of the next list calls. -/
  listFaults : List Error := []
  /-- Errors of the next watch calls. -/
  watchFaults : List Error := []
  /-- The streams by number. -/
  streams : List (WatchStream β) := []
  /-- Numbers of the streams that wait to be opened. -/
  queued : List Nat := []
  /-- List calls never return. -/
  listHangs : Bool := false
  /-- Watch calls never return. -/
  watchHangs : Bool := false
  /-- List calls crash the caller. -/
  listCrashes : Bool := false
  /-- How long list calls take. -/
  listDelay : Duration := .zero
  /-- The calls so far, newest first. -/
  calls : List ApiCall := []

/-- How a call begins. -/
inductive Answer (α : Type) where
  /-- It answers at once. -/
  | now (a : α)
  /-- It answers after a while. -/
  | later (d : Duration)
  /-- It never answers. -/
  | never
  /-- It takes the caller down. -/
  | crash

namespace WatchApi

variable {β : Type}

/-- The answer of a list call that is due. -/
def listAnswer (api : WatchApi β) : Except Error (ObjectList β) × WatchApi β :=
  match api.listFaults with
  | e :: rest => (.error e, { api with listFaults := rest })
  | [] => (.ok api.contents, api)

/-- A list call begins. -/
def list (api : WatchApi β) : Answer (Except Error (ObjectList β)) × WatchApi β :=
  let api := { api with calls := .list :: api.calls }
  if api.listCrashes then (.crash, api)
  else if api.listHangs then (.never, api)
  else if api.listDelay.isZero then
    let r := api.listAnswer
    (.now r.1, r.2)
  else (.later api.listDelay, api)

/-- Change the stream with a number. -/
def modifyStream (api : WatchApi β) (n : Nat) (f : WatchStream β → WatchStream β) : WatchApi β :=
  { api with streams := api.streams.modify n f }

/-- A watch call: the number of the stream it opens, if that stream ever yields anything. -/
def watch (api : WatchApi β) (version : String) :
    Answer (Except Error (Option Nat)) × WatchApi β :=
  let api := { api with calls := .watch version :: api.calls }
  if api.watchHangs then (.never, api)
  else
    match api.watchFaults with
    | e :: rest => (.now (.error e), { api with watchFaults := rest })
    | [] =>
      match api.queued with
      | n :: rest =>
        (.now (.ok (some n)),
          { api with queued := rest }.modifyStream n fun s => { s with reader := .present })
      | [] => (.now (.ok none), api)

/-- Queue a stream. -/
def queueStream (api : WatchApi β) : WatchApi β :=
  { api with streams := api.streams ++ [{}], queued := api.queued ++ [api.streams.length] }

/-- Append to a stream, unless its reader is gone or it was closed. -/
def send (api : WatchApi β) (n : Nat) (items : List (Except Error (WatchEvent β))) : WatchApi β :=
  api.modifyStream n fun s =>
    if s.reader = .gone ∨ s.ended then s else { s with items := s.items ++ items }

/-- End a stream. -/
def close (api : WatchApi β) (n : Nat) : WatchApi β :=
  api.modifyStream n fun s => { s with ended := true }

/-- The reader of a stream leaves. -/
def leave (api : WatchApi β) (n : Option Nat) : WatchApi β :=
  match n with
  | some n => api.modifyStream n fun s => { s with reader := .gone, items := [] }
  | none => api

/-- The next item of a stream that is read; nothing while there is none. -/
def next? (api : WatchApi β) (n : Option Nat) : Option (Informer.Input β × WatchApi β) :=
  match n.bind fun n => api.streams[n]?.map fun s => (n, s) with
  | none => none
  | some (n, s) =>
    match s.items with
    | .ok e :: rest => some (.event e, api.modifyStream n fun s => { s with items := rest })
    | .error e :: rest => some (.failed e, api.modifyStream n fun s => { s with items := rest })
    | [] => if s.ended then some (.closed, api) else none

end WatchApi

/-- A change of what the API does. -/
inductive ApiCommand (β : Type) where
  /-- Set what list calls return. -/
  | setList (contents : ObjectList β)
  /-- Let the next list call fail. -/
  | failList (e : Error)
  /-- Let the next watch call fail. -/
  | failWatch (e : Error)
  /-- Queue a stream. -/
  | queueStream
  /-- Append to a stream. -/
  | send (stream : Nat) (items : List (Except Error (WatchEvent β)))
  /-- End a stream. -/
  | close (stream : Nat)
  /-- Set which calls never return. -/
  | hang (lists watches : Bool)
  /-- Set how long list calls take. -/
  | delayLists (d : Duration)
  /-- Let list calls crash the caller. -/
  | crashLists

/-- Carry out a change. -/
def WatchApi.apply {β : Type} (api : WatchApi β) : ApiCommand β → WatchApi β
  | .setList contents => { api with contents := contents }
  | .failList e => { api with listFaults := api.listFaults ++ [e] }
  | .failWatch e => { api with watchFaults := api.watchFaults ++ [e] }
  | .queueStream => api.queueStream
  | .send stream items => api.send stream items
  | .close stream => api.close stream
  | .hang lists watches => { api with listHangs := lists, watchHangs := watches }
  | .delayLists d => { api with listDelay := d }
  | .crashLists => { api with listCrashes := true }

end Reconciler.Simulation
