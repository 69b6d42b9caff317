import Mathlib.Logic.Relation
import Reconciler.Informer.Machine

/-!
# Runs of an informer

A `Loop` is the informer machine with the outputs it has not carried out yet, the clock, and
everything that happened so far. A run carries the outputs out one by one and gives the machine its
next input when none is left, so whoever consumes the streams may act between any two of them. A
cancellation can come at any time and drops what is left.

`Loop.past` is there for statements only: nothing in the machine reads it.

## Main definitions

* `Occurrence`, `Loop` : what can happen, and an informer at work with its history
* `State.Awaits` : which inputs can come next
* `Loop.Step`, `Loop.Run`, `Loop.Reachable` : one step, runs, and the states of all runs
* `State.Effect` : what a step can do to the cache, to the queue of a resync and to the streams

## Main results

* `State.effect_step` : every step has one of these effects
* `Loop.Reachable.invariant` : what holds at the start and is kept by every step always holds
* `Loop.Reachable.invariant_of_effect` : the same for the cache, the objects sent and the queue
-/

namespace Reconciler

namespace Informer

variable {β : Type}

/-- Something that happened in a run. -/
inductive Occurrence (β : Type) where
  /-- The machine took an input. -/
  | took (t : Instant) (phase : Phase) (i : Input β)
  /-- An output was carried out. For an object this means that its channel took it, or that nobody
  receives the stream any more. -/
  | carried (out : Output β)

/-- The object that an output sends, with its stream. -/
def Output.sent? : Output β → Option (Route × Object β)
  | .send route o => some (route, o)
  | _ => none

/-- The objects that outputs send, in order. -/
def sent (outs : List (Output β)) : List (Route × Object β) := outs.filterMap Output.sent?

/-- The object that was sent, if that is what happened. -/
def Occurrence.sent? : Occurrence β → Option (Route × Object β)
  | .carried out => out.sent?
  | .took .. => none

@[simp] theorem sent_nil : sent ([] : List (Output β)) = [] := rfl

@[simp] theorem sent_log (e : LogEvent) (outs : List (Output β)) :
    sent (.log e :: outs) = sent outs := rfl

@[simp] theorem sent_list (outs : List (Output β)) : sent (.list :: outs) = sent outs := rfl

@[simp] theorem sent_watch (version : String) (outs : List (Output β)) :
    sent (.watch version :: outs) = sent outs := rfl

@[simp] theorem sent_report (e : Error) (outs : List (Output β)) :
    sent (.report e :: outs) = sent outs := rfl

@[simp] theorem sent_send (route : Route) (o : Object β) (outs : List (Output β)) :
    sent (.send route o :: outs) = (route, o) :: sent outs := rfl

@[simp] theorem sent_append (outs outs' : List (Output β)) :
    sent (outs ++ outs') = sent outs ++ sent outs' :=
  List.filterMap_append

theorem mem_sent {outs : List (Output β)} {route : Route} {o : Object β} :
    (route, o) ∈ sent outs ↔ .send route o ∈ outs := by
  refine ⟨fun h => ?_, fun h => List.mem_filterMap.2 ⟨_, h, rfl⟩⟩
  obtain ⟨out, hout, heq⟩ := List.mem_filterMap.1 h
  cases out with
  | send route o => cases heq; exact hout
  | _ => cases heq

/-- The inputs that can come next at a time. A timer can go off once it is due. -/
def State.Awaits (s : State β) (now : Duration) : Input β → Prop
  | .listed _ => (∃ mode, s.phase = .listing mode) ∨ ∃ rest, s.phase = .resyncing rest
  | .opened _ => ∃ version, s.phase = .opening version
  | .settled => ∃ resume, s.phase = .failing resume
  | .event _ | .failed _ | .closed => ∃ version, s.phase = .resting (.watching version)
  | i => ∃ due, (due, i) ∈ s.timers ∧ due ≤ now

/-- Timers only run while the machine rests: for the next resync and for the queue if resyncs go on,
and for the end of a pause. -/
theorem State.exists_rest_of_mem_timers {s : State β} {due : Duration} {i : Input β}
    (h : (due, i) ∈ s.timers) :
    ∃ rest, s.phase = .resting rest ∧ ((i = .resyncDue ∨ i = .pacedDue) ∧ rest.resyncs = true ∨
      i = .pauseOver ∧ ∃ resume, rest = .pausing due resume) := by
  unfold timers at h
  split at h
  case h_2 => cases h
  case h_1 rest hphase =>
    refine ⟨rest, hphase, ?_⟩
    rcases List.mem_append.1 h with h | h
    · cases rest with
      | watching version => cases h
      | pausing until_ resume =>
        cases List.mem_singleton.1 h
        exact .inr ⟨rfl, resume, rfl⟩
    · split at h
      case isFalse => cases h
      case isTrue hresyncs =>
        rcases List.mem_cons.1 h with h | h
        · exact .inl ⟨.inl (Prod.mk.inj h).2, hresyncs⟩
        · split at h
          · cases h
          · exact .inl ⟨.inr (Prod.mk.inj (List.mem_singleton.1 h)).2, hresyncs⟩

/-! ### What a step does

`State.Effect s i cache paced sends` says that the input `i` can take a machine in state `s` to the
cache `cache` and the queue `paced` while `sends` is sent. It is the only place where the cases of
`State.step` are gone through; what later modules prove of all runs goes by these eight cases. -/

/-- What a step can do to the cache, to the queue of a resync and to the streams. -/
inductive State.Effect (s : State β) :
    Input β → Cache → List (Object β) → List (Route × Object β) → Prop where
  /-- Nothing. -/
  | quiet (i : Input β) : Effect s i s.cache s.paced []
  /-- A list seeds or repairs the cache. -/
  | listed {mode : ListMode} (hphase : s.phase = .listing mode) (l : ObjectList β) :
      Effect s (.listed (.ok l)) (s.applyList mode l.items).1.cache s.paced
        (sent (s.applyList mode l.items).2)
  /-- The list of a resync replaces the queue. -/
  | resynced {rest : Rest} (hphase : s.phase = .resyncing rest) (now : Duration)
      (l : ObjectList β) :
      Effect s (.listed (.ok l)) (s.applyResync now l.items).1.cache l.items []
  /-- The next object of the queue is handed out. -/
  | handedOut {o : Object β} {rest : List (Object β)} (hpaced : s.paced = o :: rest)
      (hcurrent : (s.cache.get? o.key).map (·.version) = some o.version) :
      Effect s .pacedDue s.cache rest [(o.route, o)]
  /-- The next object of the queue is no longer current. -/
  | passedOver {o : Object β} {rest : List (Object β)} (hpaced : s.paced = o :: rest)
      (hcurrent : (s.cache.get? o.key).map (·.version) ≠ some o.version) :
      Effect s .pacedDue s.cache rest []
  /-- An object is created or changed, and that is news. -/
  | changed {e : WatchEvent β} {o : Object β} (he : e = .added o ∨ e = .modified o)
      (hnews : s.cache.knows o = false) :
      Effect s (.event e) (s.cache.put o.key ⟨o.version, o.isDeleting⟩) s.paced [(o.route, o)]
  /-- An object is removed, and that is news. -/
  | removed {o : Object β} (hnews : ∀ e, s.cache.get? o.key = some e → e.deleting = false) :
      Effect s (.event (.deleted o)) (s.cache.erase o.key) s.paced [(.delete, o)]
  /-- An object is removed that was last observed while being deleted. -/
  | forgotten {o : Object β} {e : Cache.Entry} (he : s.cache.get? o.key = some e)
      (hdel : e.deleting = true) :
      Effect s (.event (.deleted o)) (s.cache.erase o.key) s.paced []

namespace State

theorem effect_stepListed {s : State β} {mode : ListMode} (hphase : s.phase = .listing mode)
    (t : Instant) (r : Except Error (ObjectList β)) :
    s.Effect (.listed r) (s.stepListed t mode r).1.cache (s.stepListed t mode r).1.paced
      (sent (s.stepListed t mode r).2) := by
  cases r with
  | error e => exact .quiet _
  | ok l =>
    have hsent : sent (s.stepListed t mode (.ok l)).2 = sent (s.applyList mode l.items).2 := by
      simp [stepListed, reopen, applyList, calm]
    rw [hsent]
    exact .listed hphase l

theorem effect_stepResynced {s : State β} {rest : Rest} (hphase : s.phase = .resyncing rest)
    (t : Instant) (r : Except Error (ObjectList β)) :
    s.Effect (.listed r) (s.stepResynced t rest r).1.cache (s.stepResynced t rest r).1.paced
      (sent (s.stepResynced t rest r).2) := by
  cases r with
  | error e => exact .quiet _
  | ok l =>
    have hsent : sent (s.stepResynced t rest (.ok l)).2 = [] := by
      simp only [stepResynced, applyResync, forget, sent_append]
      split <;> split <;> rfl
    rw [hsent]
    exact .resynced hphase t.time l

theorem effect_emitPaced (s : State β) (now : Duration) :
    s.Effect .pacedDue (s.emitPaced now).1.cache (s.emitPaced now).1.paced
      (sent (s.emitPaced now).2) := by
  unfold emitPaced
  split
  case h_1 h => exact .quiet _
  case h_2 o rest h =>
    have hiff : ((s.cache.get? o.key).any fun e => e.version == o.version) =
        ((s.cache.get? o.key).map (·.version) == some o.version) := by
      cases s.cache.get? o.key <;> simp
    split
    case isTrue hc => exact .handedOut h (by simpa [hiff] using hc)
    case isFalse hc => exact .passedOver h (by simpa [hiff] using hc)

theorem effect_handleChange (s : State β) {e : WatchEvent β} {o : Object β}
    (he : e = .added o ∨ e = .modified o) :
    s.Effect (.event e) (s.handleChange o).1.cache (s.handleChange o).1.paced
      (sent (s.handleChange o).2) := by
  cases hk : s.cache.knows o with
  | true =>
    simp only [handleChange, Cache.observe, hk]
    exact .quiet _
  | false =>
    simp only [handleChange, Cache.observe, hk]
    exact .changed he hk

theorem effect_handleEvent (s : State β) (e : WatchEvent β) :
    s.Effect (.event e) (s.handleEvent e).1.cache (s.handleEvent e).1.paced
      (sent (s.handleEvent e).2) := by
  cases e with
  | added o => exact s.effect_handleChange (.inl rfl)
  | modified o => exact s.effect_handleChange (.inr rfl)
  | bookmark v => exact .quiet _
  | deleted o =>
    cases hget : s.cache.get? o.key with
    | none =>
      simp only [handleEvent, Cache.remove, hget]
      exact .removed (by simp [hget])
    | some entry =>
      cases hdel : entry.deleting with
      | false =>
        simp only [handleEvent, Cache.remove, hget, Option.any, hdel]
        exact .removed (by simp [hget, hdel])
      | true =>
        simp only [handleEvent, Cache.remove, hget, Option.any, hdel]
        exact .forgotten hget hdel

/-- The time of the next resync is kept as a name of its own: a comparison of states must not have
to compute it. -/
theorem stepTimer_resyncDue {s : State β} {t : Instant} {due : Duration}
    (hdue : nextResync s.config.resync s.resyncAt t.time = due) (rest : Rest) :
    s.stepTimer t rest .resyncDue =
      ({ s with resyncAt := due, phase := .resyncing rest },
        [.log (.resyncing s.cache.size), .list]) := by
  subst hdue
  rfl

theorem effect_stepTimer (s : State β) (t : Instant) (rest : Rest) (i : Input β) :
    s.Effect i (s.stepTimer t rest i).1.cache (s.stepTimer t rest i).1.paced
      (sent (s.stepTimer t rest i).2) := by
  cases i with
  | pacedDue =>
    rw [show s.stepTimer t rest .pacedDue = s.emitPaced t.time from rfl]
    exact s.effect_emitPaced t.time
  | pauseOver => obtain _ | ⟨_, _ | _⟩ := rest <;> exact .quiet _
  | resyncDue =>
    obtain ⟨due, hdue⟩ : ∃ due, nextResync s.config.resync s.resyncAt t.time = due := ⟨_, rfl⟩
    rw [stepTimer_resyncDue hdue]
    exact .quiet _
  | _ => exact .quiet _

/-- Rewinding the pauses has no part in what an event does. -/
theorem handleEvent_calm (s : State β) (t : Instant) (e : WatchEvent β) :
    (s.calm t).handleEvent e = ((s.handleEvent e).1.calm t, (s.handleEvent e).2) := by
  have hchange (o : Object β) :
      (s.calm t).handleChange o = ((s.handleChange o).1.calm t, (s.handleChange o).2) := by
    cases hk : s.cache.knows o <;> simp [handleChange, Cache.observe, calm, hk]
  cases e with
  | added o => exact hchange o
  | modified o => exact hchange o
  | deleted o => rfl
  | bookmark v => rfl

theorem effect_stepWatch (s : State β) (t : Instant) (version : String) (i : Input β) :
    s.Effect i (s.stepWatch t version i).1.cache (s.stepWatch t version i).1.paced
      (sent (s.stepWatch t version i).2) := by
  cases i with
  | event e =>
    simp only [stepWatch, handleEvent_calm]
    exact s.effect_handleEvent e
  | failed e =>
    simp only [stepWatch]
    split <;> exact .quiet _
  | closed => exact .quiet _
  | _ =>
    simp only [stepWatch]
    exact s.effect_stepTimer t (.watching version) _

/-- Every step has one of the effects. -/
theorem effect_step (s : State β) (t : Instant) (i : Input β) :
    s.Effect i (s.step t i).1.cache (s.step t i).1.paced (sent (s.step t i).2) := by
  cases hphase : s.phase with
  | listing mode =>
    cases i with
    | listed r => simpa only [step, hphase] using effect_stepListed hphase t r
    | _ => simp only [step, hphase]; exact .quiet _
  | resyncing rest =>
    cases i with
    | listed r => simpa only [step, hphase] using effect_stepResynced hphase t r
    | _ => simp only [step, hphase]; exact .quiet _
  | opening version =>
    cases i with
    | opened r =>
      simp only [step, hphase, stepOpened]
      split
      · exact .quiet _
      · split <;> exact .quiet _
    | _ => simp only [step, hphase]; exact .quiet _
  | failing resume =>
    cases i with
    | _ => simp only [step, hphase]; exact .quiet _
  | stopped =>
    cases i with
    | _ => simp only [step, hphase]; exact .quiet _
  | resting rest =>
    cases rest with
    | watching version =>
      cases i with
      | listed | opened | settled | cancelled => simp only [step, hphase]; exact .quiet _
      | _ => simpa only [step, hphase] using s.effect_stepWatch t version _
    | pausing until_ resume =>
      cases i with
      | listed | opened | settled | cancelled => simp only [step, hphase]; exact .quiet _
      | _ => simpa only [step, hphase] using s.effect_stepTimer t (.pausing until_ resume) _

/-- A machine that stopped stays as it is. -/
theorem step_stopped {s : State β} (hphase : s.phase = .stopped) (t : Instant) (i : Input β) :
    s.step t i = (s, []) := by
  cases i <;> simp only [step, hphase]

theorem phase_step_cancelled (s : State β) (t : Instant) :
    (s.step t .cancelled).1.phase = .stopped := by
  simp only [step]
  split
  · assumption
  · rfl

end State

/-! ### Runs -/

/-- An object with nothing in it but what the machine looks at. -/
def sample (name version : String) (deleting : Bool) : Object Unit where
  metadata :=
    { name := some name
      resourceVersion := some version
      deletionTimestamp := if deleting then some "2024-01-01T00:00:00Z" else none }
  body := ()

/-- Some milliseconds after the start of the clock. -/
def Instant.ofMillis (m : Nat) : Instant := ⟨.ofMillis m, default⟩

/-- An informer at work. -/
structure Loop (β : Type) where
  /-- The machine. -/
  machine : State β
  /-- What it wants done and was not done yet, in order. -/
  pending : List (Output β)
  /-- The time of the last input. -/
  now : Duration
  /-- What happened so far, oldest first. -/
  past : List (Occurrence β) := []

namespace Loop

/-- The informer as it starts. -/
def start (config : Config) (now : Duration) : Loop β :=
  { machine := (State.start config now).1, pending := (State.start config now).2, now := now }

/-- The machine takes an input. Outputs that are left from before are dropped. -/
def take (l : Loop β) (t : Instant) (i : Input β) : Loop β :=
  { machine := (l.machine.step t i).1
    pending := (l.machine.step t i).2
    now := t.time
    past := l.past ++ [.took t l.machine.phase i] }

/-- All outputs are carried out. -/
def settle (l : Loop β) : Loop β :=
  { l with pending := [], past := l.past ++ l.pending.map .carried }

/-- The objects sent so far, oldest first. -/
def sends (l : Loop β) : List (Route × Object β) := l.past.filterMap Occurrence.sent?

/-- One step of a run. -/
inductive Step : Loop β → Loop β → Prop where
  /-- The next output is carried out. -/
  | carry {l : Loop β} {out : Output β} {rest : List (Output β)} (hp : l.pending = out :: rest) :
      Step l { l with pending := rest, past := l.past ++ [.carried out] }
  /-- Something happens that the machine waits for. -/
  | take {l : Loop β} (t : Instant) (i : Input β) (hp : l.pending = []) (ht : l.now ≤ t.time)
      (hi : l.machine.Awaits t.time i) : Step l (l.take t i)
  /-- The informer is cancelled. -/
  | cancel {l : Loop β} (t : Instant) (ht : l.now ≤ t.time) (hs : l.machine.phase ≠ .stopped) :
      Step l (l.take t .cancelled)

/-- A step adds one entry to the history. -/
theorem Step.exists_past {l l' : Loop β} (h : Step l l') : ∃ x, l'.past = l.past ++ [x] := by
  cases h with
  | carry hp => exact ⟨_, rfl⟩
  | take t i hp ht hi => exact ⟨_, rfl⟩
  | cancel t ht hs => exact ⟨_, rfl⟩

/-- Any number of steps. -/
def Run : Loop β → Loop β → Prop := Relation.ReflTransGen Step

/-- The states that an informer with a configuration can come to. -/
def Reachable (config : Config) (l : Loop β) : Prop := ∃ now, Run (start config now) l

/-- What holds at the start and is kept by every step holds in every run. -/
theorem Reachable.invariant {P : Loop β → Prop} {config : Config}
    (hstart : ∀ now, P (start config now)) (hstep : ∀ l l', Step l l' → P l → P l') {l : Loop β}
    (hl : Reachable config l) : P l := by
  obtain ⟨now, hrun⟩ := hl
  induction hrun with
  | refl => exact hstart now
  | tail _ hs ih => exact hstep _ _ hs ih

theorem Reachable.start (config : Config) (now : Duration) :
    Reachable config (start config now : Loop β) :=
  ⟨now, Relation.ReflTransGen.refl⟩

theorem Reachable.step {config : Config} {l l' : Loop β} (hl : Reachable config l)
    (hs : Step l l') : Reachable config l' := by
  obtain ⟨now, hrun⟩ := hl
  exact ⟨now, hrun.tail hs⟩

/-- Outputs can be carried out to the end by every relation that lets the next one be carried
out. -/
theorem settle_of_carry {r : Loop β → Loop β → Prop}
    (hcarry : ∀ {l : Loop β} {out rest}, l.pending = out :: rest →
      r l { l with pending := rest, past := l.past ++ [.carried out] }) (l : Loop β) :
    Relation.ReflTransGen r l l.settle := by
  obtain ⟨s, pending, now, past⟩ := l
  induction pending generalizing past with
  | nil =>
    rw [show settle ⟨s, [], now, past⟩ = ⟨s, [], now, past⟩ by simp [settle]]
  | cons out rest ih =>
    have hrest := ih (past ++ [.carried out])
    rw [show settle ⟨s, rest, now, past ++ [.carried out]⟩ = settle ⟨s, out :: rest, now, past⟩ by
      simp [settle]] at hrest
    exact Relation.ReflTransGen.head (hcarry rfl) hrest

theorem run_settle (l : Loop β) : Run l l.settle := settle_of_carry Step.carry l

theorem Reachable.settle {config : Config} {l : Loop β} (hl : Reachable config l) :
    Reachable config l.settle := by
  obtain ⟨now, hrun⟩ := hl
  exact ⟨now, hrun.trans l.run_settle⟩

/-- What was wanted is carried out, and then something happens that the machine waits for. -/
theorem Reachable.take {config : Config} {l : Loop β} (hl : Reachable config l) (t : Instant)
    (i : Input β) (ht : l.now ≤ t.time) (hi : l.machine.Awaits t.time i) :
    Reachable config (l.settle.take t i) :=
  hl.settle.step (.take t i rfl ht hi)

/-- The inputs of a script happen one after the other. What is wanted is carried out before each of
them and after the last. -/
def play (l : Loop β) : List (Instant × Input β) → Loop β
  | [] => l.settle
  | (t, i) :: rest => (l.settle.take t i).play rest

/-- Every input of a script comes when the machine waits for it. -/
def Admits (l : Loop β) : List (Instant × Input β) → Prop
  | [] => True
  | (t, i) :: rest =>
    l.now ≤ t.time ∧ l.machine.Awaits t.time i ∧ (l.settle.take t i).Admits rest

theorem Reachable.play {config : Config} {script : List (Instant × Input β)} {l : Loop β}
    (hl : Reachable config l) (hscript : l.Admits script) : Reachable config (l.play script) := by
  induction script generalizing l with
  | nil => exact hl.settle
  | cons x rest ih =>
    obtain ⟨ht, hi, hrest⟩ := hscript
    exact ih (hl.take x.1 x.2 ht hi) hrest

@[simp] theorem settle_machine (l : Loop β) : l.settle.machine = l.machine := rfl

@[simp] theorem settle_pending (l : Loop β) : l.settle.pending = [] := rfl

@[simp] theorem settle_now (l : Loop β) : l.settle.now = l.now := rfl

@[simp] theorem take_machine (l : Loop β) (t : Instant) (i : Input β) :
    (l.take t i).machine = (l.machine.step t i).1 := rfl

@[simp] theorem take_pending (l : Loop β) (t : Instant) (i : Input β) :
    (l.take t i).pending = (l.machine.step t i).2 := rfl

@[simp] theorem take_now (l : Loop β) (t : Instant) (i : Input β) : (l.take t i).now = t.time := rfl

@[simp] theorem sends_start (config : Config) (now : Duration) :
    (start config now : Loop β).sends = [] := rfl

@[simp] theorem sends_take (l : Loop β) (t : Instant) (i : Input β) :
    (l.take t i).sends = l.sends := by
  simp [sends, take, Occurrence.sent?]

@[simp] theorem sends_settle (l : Loop β) : l.settle.sends = l.sends ++ sent l.pending := by
  simp only [sends, settle, sent, List.filterMap_append, List.filterMap_map]
  rfl

/-- The objects sent before and after an output is carried out, as seen from what is sent and what
is still to be sent together. -/
theorem sends_carry {l : Loop β} {out : Output β} {rest : List (Output β)}
    (hp : l.pending = out :: rest) :
    sends { l with pending := rest, past := l.past ++ [.carried out] } ++ sent rest =
      l.sends ++ sent l.pending := by
  simp only [sends, sent, hp, List.filterMap_append, List.filterMap_cons, List.filterMap_nil]
  cases h : out.sent? <;> simp [Occurrence.sent?, h]

/-- What holds of the empty cache, and is kept by every effect as far as it concerns the cache, the
objects sent and the queue, holds until the informer is cancelled. Outputs that wait count as
sent. -/
theorem Reachable.invariant_of_effect
    {P : Cache → List (Route × Object β) → List (Object β) → Prop} (hstart : P {} [] [])
    (heffect : ∀ {s : State β} {i cache paced sends before}, s.Effect i cache paced sends →
      P s.cache before s.paced → P cache (before ++ sends) paced)
    {config : Config} {l : Loop β} (hl : Reachable config l) :
    l.machine.phase = .stopped ∨
      P l.machine.cache (l.sends ++ sent l.pending) l.machine.paced := by
  refine hl.invariant (P := fun l => l.machine.phase = .stopped ∨
    P l.machine.cache (l.sends ++ sent l.pending) l.machine.paced) ?_ ?_
  · intro now
    exact .inr hstart
  · intro l l' hstep h
    cases hstep with
    | carry hp =>
      rw [sends_carry hp]
      exact h
    | take t i hp ht hi =>
      rcases h with hstopped | h
      · exact .inl (by rw [take_machine, State.step_stopped hstopped]; exact hstopped)
      · rw [hp, sent_nil, List.append_nil] at h
        rw [sends_take]
        exact .inr (heffect (l.machine.effect_step t i) h)
    | cancel t ht hs => exact .inl (State.phase_step_cancelled l.machine t)

end Loop

end Informer

end Reconciler
