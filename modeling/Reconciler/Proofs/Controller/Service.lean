import Reconciler.Controller.Stage
import Reconciler.Proofs.Controller.Boot
import Reconciler.Proofs.Informer.Feed

/-!
# A booted controller and its informer

A `Service` is a booted controller from its first act on, with the informer that it starts and all
that happened so far. One step is one act of the program that the controller is at, an occurrence in
the informer, or a change of the stage. So the informer sends while a pass goes on, and a
cancellation can come at any time.

The controller takes an item and counts it in one step, because it waits for nothing in between.
Whatever the handling of the item comes to, there is only one way to go on, and that is to wait for
the next one. `Service.past` is there for statements only: nothing in a step depends on it.

## Main definitions

* `Controller.Readies` : bringing the definition of a controller into service
* `Job` : the handling of an item
* `Service`, `Service.Step`, `Service.Reachable` : a booted controller and its runs
* `Service.Stands` : what is behind a controller at each stage
* `Service.Effect` : what a step can do about the items

## Main results

* `Service.Reachable.stands` : in every run a controller stands as its stage says
* `Service.Step.effect` : every step has one of the effects
-/

namespace Reconciler

open Program (Act Runs)
open Informer (Loop Occurrence)

variable {I : Interface} {β P ι : Type}

/-! ### The definition of the kind -/

/-- The definition of the controller is brought into service, if it has one, and otherwise nothing
is done. If there is no result then that is how far it has come. -/
def Controller.Readies (c : Controller I β P ι) (acts : List (Act definitions))
    (r : Option (Except Error Unit)) : Prop :=
  match c.schema with
  | some d => Runs d.ensureEstablished acts r
  | none => acts = [] ∧ ∀ x, r = some x → x = .ok ()

/-- This is what a controller does before it starts its informer. -/
theorem Controller.runs_prepare_iff {c : Controller I β P ι} {acts : List (Act definitions)}
    {r : Option (Except Error Unit)} : Runs c.prepare acts r ↔ c.Readies acts r := by
  rw [Controller.prepare, Controller.Readies]
  cases c.schema with
  | some d => rfl
  | none =>
    constructor
    · intro h
      obtain ⟨hacts, hr⟩ := h.of_done
      refine ⟨hacts, fun x hx => ?_⟩
      simpa [hx] using hr
    · rintro ⟨rfl, hr⟩
      cases r with
      | none => exact .cut _
      | some x =>
        rw [hr x rfl]
        exact .done _

/-! ### The run of a booted controller -/

/-- The handling of an item. -/
structure Job (I : Interface) (β : Type) where
  /-- The item. -/
  item : Received β
  /-- What happened, oldest first. -/
  acts : List (Act (controllerInterface I β))
  /-- Its end, unless it still goes on. -/
  result : Option Unit

/-- Something that happened to a booted controller. -/
inductive Service.Entry (I : Interface) (β : Type) where
  /-- The preparation ended. -/
  | prepared (acts : List (Act definitions)) (r : Except Error Unit)
  /-- Something happened in the informer. -/
  | informed (o : Occurrence β)
  /-- An item was taken. -/
  | took (item : Received β)
  /-- An item was handled. -/
  | handled (j : Job I β)
  /-- The controller logged something outside of any pass. -/
  | logged (e : LogEvent)
  /-- The controller was cancelled. -/
  | cancelled

namespace Service.Entry

/-- What happened in the informer. -/
def occurrence? : Entry I β → Option (Occurrence β)
  | informed o => some o
  | _ => none

/-- The item that was taken. -/
def taken? : Entry I β → Option (Received β)
  | took item => some item
  | _ => none

/-- The job that came to its end. -/
def finished? : Entry I β → Option (Job I β)
  | handled j => some j
  | _ => none

/-- It concerns neither the informer nor an item. -/
inductive IsNotice : Entry I β → Prop where
  /-- The preparation ended. -/
  | prepared (acts : List (Act definitions)) (r : Except Error Unit) : IsNotice (.prepared acts r)
  /-- Something was logged. -/
  | logged (e : LogEvent) : IsNotice (.logged e)
  /-- The controller was cancelled. -/
  | cancelled : IsNotice .cancelled

end Service.Entry

/-- A booted controller. -/
structure Service (I : Interface) (β : Type) where
  /-- How far it has come. -/
  stage : Stage I β
  /-- The informer, once it is started. -/
  feed : Option (Feed β) := none
  /-- It was cancelled. -/
  cancelled : Bool := false
  /-- What happened during the preparation. -/
  preparation : List (Act definitions) := []
  /-- What happened during the handling of the current item. -/
  course : List (Act (controllerInterface I β)) := []
  /-- All that happened so far, oldest first. -/
  past : List (Service.Entry I β) := []

namespace Service

/-- A controller as it is booted. -/
def start (c : Controller I β P ι) : Service I β := { stage := .preparing c.prepare }

/-- The informer has come to its end, by itself or because it was taken down. -/
inductive Over (f : Feed β) : Option String → Prop where
  /-- It stopped. -/
  | stopped (h : f.loop.machine.phase = .stopped) (hp : f.loop.pending = [])
      (hcrashed : f.crashed = false) : Over f none
  /-- It was taken down. -/
  | crashed (h : f.crashed = true) (text : String) : Over f (some text)

/-- One step of a run. -/
inductive Step (c : Controller I β P ι) : Service I β → Service I β → Prop where
  /-- The next act of the preparation. -/
  | prepare {v : Service I β} {p rest : Program definitions (Except Error Unit)}
      {a : Act definitions} (hstage : v.stage = .preparing p) (h : Program.Step p a rest) :
      Step c v { v with stage := .preparing rest, preparation := v.preparation ++ [a] }
  /-- The preparation succeeded: the informer is started. -/
  | serve {v : Service I β} (now : Duration) (hstage : v.stage = .preparing (.done (.ok ()))) :
      Step c v { v with
        stage := .afterPreparing (.ok ())
        feed := some (.start c.informer now)
        past := v.past ++ [.prepared v.preparation (.ok ()), .logged c.greeting] }
  /-- The preparation failed. -/
  | refuse {v : Service I β} {e : Error} (hstage : v.stage = .preparing (.done (.error e))) :
      Step c v { v with
        stage := .afterPreparing (.error e)
        past := v.past ++ [.prepared v.preparation (.error e)] }
  /-- Something happens in the informer. -/
  | inform {v : Service I β} {f f' : Feed β} {o : Occurrence β} (hfeed : v.feed = some f)
      (h : f.Step v.cancelled o f') :
      Step c v { v with feed := some f', past := v.past ++ [.informed o] }
  /-- The informer is taken down by one of its calls. -/
  | crash {v : Service I β} {f : Feed β} (hfeed : v.feed = some f) :
      Step c v { v with feed := some { f with crashed := true } }
  /-- The controller takes an item, and does the first thing about it. -/
  | take {v : Service I β} {f : Feed β} {item : Received β} {p rest : Controller.Task I β Unit}
      {outlets : Outlets β} {a : Act (controllerInterface I β)} (hstage : v.stage = .serving)
      (hfeed : v.feed = some f)
      (hattend : c.attend v.cancelled f.outlets = some (.handling item p, outlets))
      (h : Program.Step p a rest) :
      Step c v { v with
        stage := .handling item rest
        feed := some { f with outlets := outlets }
        course := [a]
        past := v.past ++ [.took item] }
  /-- The next act of the handling of the item. -/
  | act {v : Service I β} {item : Received β} {p rest : Controller.Task I β Unit}
      {a : Act (controllerInterface I β)} (hstage : v.stage = .handling item p)
      (h : Program.Step p a rest) :
      Step c v { v with stage := .handling item rest, course := v.course ++ [a] }
  /-- The item is handled. -/
  | finish {v : Service I β} {item : Received β} (hstage : v.stage = .handling item (.done ())) :
      Step c v { v with
        stage := .serving
        course := []
        past := v.past ++ [.handled ⟨item, v.course, some ()⟩] }
  /-- The controller leaves. -/
  | leave {v : Service I β} {f : Feed β} {outlets : Outlets β} (hstage : v.stage = .serving)
      (hfeed : v.feed = some f)
      (hattend : c.attend v.cancelled f.outlets = some (.closing, outlets)) :
      Step c v { v with stage := .closing, feed := some { f with outlets := outlets } }
  /-- The informer is over, and so is the controller. -/
  | stop {v : Service I β} {f : Feed β} {crash : Option String} (hstage : v.stage = .closing)
      (hfeed : v.feed = some f) (h : Over f crash) :
      Step c v { v with
        stage := .ended (.ok ())
        past := v.past ++ (c.farewell crash).map .logged }
  /-- The controller is cancelled. -/
  | cancel {v : Service I β} :
      Step c v { v with cancelled := true, past := v.past ++ [.cancelled] }

/-- The states that a booted controller can come to. -/
def Reachable (c : Controller I β P ι) (v : Service I β) : Prop :=
  Relation.ReflTransGen (Step c) (start c) v

/-- What holds at the start and is kept by every step of a run holds in every run. -/
theorem Reachable.invariant {Q : Service I β → Prop} {c : Controller I β P ι}
    (hstart : Q (start c)) (hstep : ∀ v v', Reachable c v → Step c v v' → Q v → Q v')
    {v : Service I β} (hv : Reachable c v) : Q v := by
  induction hv with
  | refl => exact hstart
  | tail hrun hs ih => exact hstep _ _ hrun hs ih

variable {c : Controller I β P ι} {v v' : Service I β}

/-! ### What happened -/

/-- What happened in the informer. -/
def occurrencesIn (past : List (Entry I β)) : List (Occurrence β) :=
  past.filterMap Entry.occurrence?

/-- The items that were sent. -/
def sentIn (past : List (Entry I β)) : List (Received β) :=
  (occurrencesIn past).filterMap Occurrence.received?

/-- The items that were taken. -/
def takenIn (past : List (Entry I β)) : List (Received β) := past.filterMap Entry.taken?

/-- The jobs that came to their end. -/
def finishedIn (past : List (Entry I β)) : List (Job I β) := past.filterMap Entry.finished?

section

variable {past past' notices : List (Entry I β)}

@[simp] theorem occurrencesIn_append :
    occurrencesIn (past ++ past') = occurrencesIn past ++ occurrencesIn past' :=
  List.filterMap_append

@[simp] theorem sentIn_append : sentIn (past ++ past') = sentIn past ++ sentIn past' := by
  simp [sentIn]

@[simp] theorem takenIn_append : takenIn (past ++ past') = takenIn past ++ takenIn past' :=
  List.filterMap_append

@[simp] theorem finishedIn_append :
    finishedIn (past ++ past') = finishedIn past ++ finishedIn past' :=
  List.filterMap_append

theorem occurrencesIn_notices (h : ∀ x ∈ notices, x.IsNotice) : occurrencesIn notices = [] := by
  refine List.filterMap_eq_nil_iff.2 fun x hx => ?_
  cases h x hx <;> rfl

theorem sentIn_notices (h : ∀ x ∈ notices, x.IsNotice) : sentIn notices = [] := by
  simp [sentIn, occurrencesIn_notices h]

theorem takenIn_notices (h : ∀ x ∈ notices, x.IsNotice) : takenIn notices = [] := by
  refine List.filterMap_eq_nil_iff.2 fun x hx => ?_
  cases h x hx <;> rfl

theorem finishedIn_notices (h : ∀ x ∈ notices, x.IsNotice) : finishedIn notices = [] := by
  refine List.filterMap_eq_nil_iff.2 fun x hx => ?_
  cases h x hx <;> rfl

@[simp] theorem occurrencesIn_informed (o : Occurrence β) :
    occurrencesIn [(.informed o : Entry I β)] = [o] := rfl

@[simp] theorem occurrencesIn_took (item : Received β) :
    occurrencesIn [(.took item : Entry I β)] = [] := rfl

@[simp] theorem occurrencesIn_handled (j : Job I β) : occurrencesIn [.handled j] = [] := rfl

@[simp] theorem sentIn_informed (o : Occurrence β) :
    sentIn [(.informed o : Entry I β)] = o.received?.toList := by
  cases h : o.received? <;> simp [sentIn, h]

@[simp] theorem sentIn_took (item : Received β) : sentIn [(.took item : Entry I β)] = [] := rfl

@[simp] theorem sentIn_handled (j : Job I β) : sentIn [.handled j] = [] := rfl

@[simp] theorem takenIn_informed (o : Occurrence β) :
    takenIn [(.informed o : Entry I β)] = [] := rfl

@[simp] theorem takenIn_took (item : Received β) :
    takenIn [(.took item : Entry I β)] = [item] := rfl

@[simp] theorem takenIn_handled (j : Job I β) : takenIn [.handled j] = [] := rfl

@[simp] theorem finishedIn_informed (o : Occurrence β) :
    finishedIn [(.informed o : Entry I β)] = [] := rfl

@[simp] theorem finishedIn_took (item : Received β) :
    finishedIn [(.took item : Entry I β)] = [] := rfl

@[simp] theorem finishedIn_handled (j : Job I β) : finishedIn [.handled j] = [j] := rfl

end

/-- What waits on a stream, oldest first. -/
def waiting (v : Service I β) (s : Stream) : List (Received β) :=
  v.feed.elim [] fun f => f.outlets.waiting s

/-- An item that is handled, with what is left to do about it. -/
structure Work (I : Interface) (β : Type) where
  /-- The item. -/
  item : Received β
  /-- What happened so far. -/
  acts : List (Act (controllerInterface I β))
  /-- What is left to do. -/
  rest : Controller.Task I β Unit

/-- The job so far. -/
def Work.job (w : Work I β) : Job I β := ⟨w.item, w.acts, none⟩

/-- The item that is handled, if any. -/
def work? (v : Service I β) : Option (Work I β) :=
  match v.stage with
  | .handling item rest => some ⟨item, v.course, rest⟩
  | _ => none

/-- All jobs, in the order in which they were begun. -/
def jobs (v : Service I β) : List (Job I β) :=
  finishedIn v.past ++ (v.work?.map Work.job).toList

/-- The controller is at work. -/
def Serves (v : Service I β) : Prop :=
  v.stage = .serving ∨ ∃ item rest, v.stage = .handling item rest

/-! ### The stages -/

/-- What is taken is the next item, and it is handled. -/
theorem next_of_attend {cancelled : Bool} {out out' : Outlets β} {item : Received β}
    {p : Controller.Task I β Unit}
    (h : c.attend cancelled out = some (.handling item p, out')) :
    cancelled = false ∧ p = c.handle item ∧ out.Next item out' := by
  rw [Controller.attend] at h
  split at h
  case isTrue => cases h
  case isFalse hcancelled =>
    obtain ⟨⟨item', out''⟩, htake, heq⟩ := Option.map_eq_some_iff.1 h
    cases heq
    exact ⟨Bool.eq_false_iff.2 hcancelled, rfl, Outlets.next_of_take? htake⟩

/-- The controller leaves only if it is cancelled, and takes nothing along. -/
theorem cancelled_of_attend {cancelled : Bool} {out out' : Outlets β}
    (h : c.attend cancelled out = some (.closing, out')) : cancelled = true ∧ out' = out := by
  rw [Controller.attend] at h
  split at h
  case isTrue hcancelled =>
    cases h
    exact ⟨hcancelled, rfl⟩
  case isFalse =>
    obtain ⟨r, -, heq⟩ := Option.map_eq_some_iff.1 h
    cases heq

/-- The preparation is over, and it has succeeded. -/
structure Prepared (c : Controller I β P ι) (past : List (Entry I β)) : Prop where
  /-- It came to its end. -/
  ended : ∃ acts, .prepared acts (.ok ()) ∈ past
  /-- Nothing else has come of it. -/
  only : ∀ acts r, .prepared acts r ∈ past → r = .ok () ∧ Runs c.prepare acts (some r)

/-- It is over once and for all. -/
theorem Prepared.append {past later : List (Entry I β)} (h : Prepared c past)
    (hlater : ∀ acts r, .prepared acts r ∉ later) : Prepared c (past ++ later) where
  ended := h.ended.imp fun _ hmem => List.mem_append_left later hmem
  only acts r hmem := h.only acts r ((List.mem_append.1 hmem).resolve_right (hlater acts r))

/-- What is behind a controller at each stage. -/
inductive Stands (c : Controller I β P ι) (v : Service I β) : Prop where
  /-- While it prepares there is no informer, and what is left continues the preparation. -/
  | preparing {p : Program definitions (Except Error Unit)} (hstage : v.stage = .preparing p)
      (hfeed : v.feed = none) (hpast : ∀ x ∈ v.past, x = .cancelled)
      (hruns : ∀ as r, Runs p as r → Runs c.prepare (v.preparation ++ as) r)
  /-- If the preparation failed then there is none either. -/
  | refused {acts : List (Act definitions)} {e : Error} (hstage : v.stage = .ended (.error e))
      (hfeed : v.feed = none) (hruns : Runs c.prepare acts (some (.error e)))
      (hpast : ∀ x ∈ v.past, x = .cancelled ∨ x = .prepared acts (.error e))
  /-- If it succeeded then the controller is at work until it is cancelled. -/
  | started {f : Feed β} (hfeed : v.feed = some f) (hloop : Loop.Reachable c.informer f.loop)
      (hknown : occurrencesIn v.past = f.loop.past) (hready : Prepared c v.past)
      (hstage : v.Serves ∨ v.cancelled = true ∧ (v.stage = .closing ∨ v.stage = .ended (.ok ())))

namespace Stands

theorem of_preparing (h : Stands c v) {p : Program definitions (Except Error Unit)}
    (hstage : v.stage = .preparing p) :
    v.feed = none ∧ (∀ x ∈ v.past, x = .cancelled) ∧
      ∀ as r, Runs p as r → Runs c.prepare (v.preparation ++ as) r := by
  cases h with
  | preparing hstage' hfeed hpast hruns =>
    rw [hstage] at hstage'
    cases hstage'
    exact ⟨hfeed, hpast, hruns⟩
  | refused hstage' => simp [hstage] at hstage'
  | started _ _ _ _ hstage' => simp [Serves, hstage] at hstage'

theorem of_feed (h : Stands c v) {f : Feed β} (hfeed : v.feed = some f) :
    Loop.Reachable c.informer f.loop ∧ occurrencesIn v.past = f.loop.past ∧
      Prepared c v.past ∧
      (v.Serves ∨ v.cancelled = true ∧ (v.stage = .closing ∨ v.stage = .ended (.ok ()))) := by
  cases h with
  | preparing _ hnone => simp [hfeed] at hnone
  | refused _ hnone => simp [hfeed] at hnone
  | started hfeed' hloop hknown hready hstage =>
    rw [hfeed] at hfeed'
    cases hfeed'
    exact ⟨hloop, hknown, hready, hstage⟩

theorem exists_feed (h : Stands c v) (hserves : v.Serves) : ∃ f, v.feed = some f := by
  cases h with
  | preparing hstage => simp [Serves, hstage] at hserves
  | refused hstage => simp [Serves, hstage] at hserves
  | started hfeed => exact ⟨_, hfeed⟩

theorem step (h : Stands c v) (hstep : Step c v v') : Stands c v' := by
  cases hstep with
  | prepare hstage hact =>
    obtain ⟨hfeed, hpast, hruns⟩ := h.of_preparing hstage
    refine .preparing rfl hfeed hpast fun as r hrest => ?_
    rw [List.append_assoc]
    exact hruns _ r (.step hact hrest)
  | serve now hstage =>
    obtain ⟨-, hpast, hruns⟩ := h.of_preparing hstage
    have hknown : occurrencesIn v.past = [] :=
      occurrencesIn_notices fun x hx => hpast x hx ▸ .cancelled
    have hsucceeded : Runs c.prepare v.preparation (some (.ok ())) := by
      simpa using hruns [] _ (.done _)
    refine .started rfl (.start c.informer now) (by rw [occurrencesIn_append, hknown]; rfl)
      ⟨⟨v.preparation, by simp⟩, fun acts r hmem => ?_⟩ (.inl (.inl rfl))
    rcases List.mem_append.1 hmem with hmem | hmem
    · cases hpast _ hmem
    · obtain ⟨rfl, rfl⟩ : acts = v.preparation ∧ r = .ok () := by simpa using hmem
      exact ⟨rfl, hsucceeded⟩
  | @refuse e hstage =>
    obtain ⟨hfeed, hpast, hruns⟩ := h.of_preparing hstage
    have hfailed : Runs c.prepare v.preparation (some (.error e)) := by
      simpa using hruns [] _ (.done _)
    refine .refused rfl hfeed hfailed fun x hx => ?_
    rcases List.mem_append.1 hx with hx | hx
    · exact .inl (hpast x hx)
    · exact .inr (List.mem_singleton.1 hx)
  | inform hfeed hinform =>
    obtain ⟨hloop, hknown, hready, hstage⟩ := h.of_feed hfeed
    exact .started rfl (hloop.step hinform.loop) (by simp [hknown, hinform.past])
      (hready.append (by simp)) hstage
  | crash hfeed =>
    obtain ⟨hloop, hknown, hready, hstage⟩ := h.of_feed hfeed
    exact .started rfl hloop hknown hready hstage
  | take hstage hfeed hattend hfirst =>
    obtain ⟨hloop, hknown, hready, -⟩ := h.of_feed hfeed
    exact .started rfl hloop (by simpa using hknown) (hready.append (by simp))
      (.inl (.inr ⟨_, _, rfl⟩))
  | act hstage hact =>
    obtain ⟨f, hfeed⟩ := h.exists_feed (.inr ⟨_, _, hstage⟩)
    obtain ⟨hloop, hknown, hready, -⟩ := h.of_feed hfeed
    exact .started hfeed hloop hknown hready (.inl (.inr ⟨_, _, rfl⟩))
  | finish hstage =>
    obtain ⟨f, hfeed⟩ := h.exists_feed (.inr ⟨_, _, hstage⟩)
    obtain ⟨hloop, hknown, hready, -⟩ := h.of_feed hfeed
    exact .started hfeed hloop (by simpa using hknown) (hready.append (by simp)) (.inl (.inl rfl))
  | leave hstage hfeed hattend =>
    obtain ⟨hloop, hknown, hready, -⟩ := h.of_feed hfeed
    obtain ⟨hcancelled, -⟩ := cancelled_of_attend hattend
    exact .started rfl hloop hknown hready (.inr ⟨hcancelled, .inl rfl⟩)
  | @stop f crash hstage hfeed hover =>
    obtain ⟨hloop, hknown, hready, hat⟩ := h.of_feed hfeed
    have hcancelled : v.cancelled = true := by
      rcases hat with hserves | ⟨hcancelled, -⟩
      · simp [Serves, hstage] at hserves
      · exact hcancelled
    have hlogged : occurrencesIn ((c.farewell crash).map (.logged : _ → Entry I β)) = [] :=
      occurrencesIn_notices (by simpa using fun e _ => .logged e)
    exact .started hfeed hloop (by simpa [hlogged] using hknown) (hready.append (by simp))
      (.inr ⟨hcancelled, .inr rfl⟩)
  | cancel =>
    cases h with
    | preparing hstage hfeed hpast hruns =>
      exact .preparing hstage hfeed (List.forall_mem_append.2 ⟨hpast, by simp⟩) hruns
    | refused hstage hfeed hruns hpast =>
      exact .refused hstage hfeed hruns (List.forall_mem_append.2 ⟨hpast, by simp⟩)
    | started hfeed hloop hknown hready hstage =>
      refine .started hfeed hloop ?_ (hready.append (by simp))
        (hstage.imp_right fun h => ⟨rfl, h.2⟩)
      rw [occurrencesIn_append, hknown]
      exact List.append_nil _

end Stands

theorem Reachable.stands (hv : Reachable c v) : Stands c v :=
  hv.invariant (.preparing rfl rfl (by simp [start]) (by simp [start])) fun _ _ _ hstep h =>
    h.step hstep

/-! ### What a step does about the items

`Service.Effect` is the only place where the steps are gone through with a view to the items. What
follows about them goes by its five cases. -/

/-- What a step can do to the record of what happened, to what waits, and to the work on an item. -/
inductive Effect (c : Controller I β P ι) (v v' : Service I β) : Prop where
  /-- Nothing that concerns an item. -/
  | quiet {notices : List (Entry I β)} (hnotices : ∀ x ∈ notices, x.IsNotice)
      (hpast : v'.past = v.past ++ notices) (hwaiting : ∀ s, v'.waiting s = v.waiting s)
      (hwork : v'.work? = v.work?)
  /-- Something happened in the informer. What was sent waits. -/
  | informed {o : Occurrence β} (hpast : v'.past = v.past ++ [.informed o])
      (hwaiting : ∀ s, v'.waiting s = v.waiting s ++ onStream s o.received?.toList)
      (hwork : v'.work? = v.work?)
  /-- The oldest item of a stream is taken, and nothing waited on those before. -/
  | took {item : Received β} {a : Act (controllerInterface I β)} {rest : Controller.Task I β Unit}
      (hpast : v'.past = v.past ++ [.took item])
      (hwaiting : ∀ s, v.waiting s = onStream s [item] ++ v'.waiting s)
      (hbefore : ∀ s, s.Precedes item.stream → v.waiting s = [])
      (hidle : v.work? = none) (hwork : v'.work? = some ⟨item, [a], rest⟩)
      (h : Program.Step (c.handle item) a rest)
  /-- The work goes on. -/
  | worked {item : Received β} {as : List (Act (controllerInterface I β))}
      {a : Act (controllerInterface I β)} {p rest : Controller.Task I β Unit}
      (hpast : v'.past = v.past) (hwaiting : ∀ s, v'.waiting s = v.waiting s)
      (hwork : v.work? = some ⟨item, as, p⟩) (hwork' : v'.work? = some ⟨item, as ++ [a], rest⟩)
      (h : Program.Step p a rest)
  /-- The work is done. -/
  | finished {item : Received β} {as : List (Act (controllerInterface I β))}
      (hpast : v'.past = v.past ++ [.handled ⟨item, as, some ()⟩])
      (hwaiting : ∀ s, v'.waiting s = v.waiting s)
      (hwork : v.work? = some ⟨item, as, .done ()⟩) (hidle : v'.work? = none)

theorem Step.effect (hv : Reachable c v) (h : Step c v v') : Effect c v v' := by
  cases h with
  | prepare hstage =>
    exact .quiet (by simp) (List.append_nil _).symm (fun _ => rfl) (by simp [work?, hstage])
  | serve now hstage =>
    obtain ⟨hnone, -, -⟩ := hv.stands.of_preparing hstage
    refine .quiet ?_ rfl (fun s => by simp [waiting, hnone])
      (by simp [work?, hstage, Stage.afterPreparing])
    simpa using And.intro (.prepared _ _) (.logged _)
  | refuse hstage =>
    exact .quiet (by simpa using .prepared _ _) rfl (fun _ => rfl)
      (by simp [work?, hstage, Stage.afterPreparing])
  | inform hfeed hinform =>
    exact .informed rfl (fun s => by simp [waiting, hfeed, hinform.waiting]) rfl
  | crash hfeed =>
    exact .quiet (by simp) (List.append_nil _).symm (fun s => by simp [waiting, hfeed]) rfl
  | take hstage hfeed hattend hfirst =>
    obtain ⟨-, rfl, hnext⟩ := next_of_attend hattend
    refine .took rfl (fun s => ?_) (fun s hs => ?_) (by simp [work?, hstage]) rfl hfirst
    · simp [waiting, hfeed, hnext.waiting]
    · simpa [waiting, hfeed] using hnext.waiting_of_precedes hs
  | act hstage hact =>
    exact .worked rfl (fun _ => rfl) (by simp [work?, hstage]) rfl hact
  | finish hstage =>
    exact .finished rfl (fun _ => rfl) (by simp [work?, hstage]) rfl
  | leave hstage hfeed hattend =>
    obtain ⟨-, rfl⟩ := cancelled_of_attend hattend
    exact .quiet (by simp) (List.append_nil _).symm (fun s => by simp [waiting, hfeed])
      (by simp [work?, hstage])
  | stop hstage =>
    exact .quiet (by simpa using fun e _ => .logged e) rfl (fun _ => rfl) (by simp [work?, hstage])
  | cancel => exact .quiet (by simpa using .cancelled) rfl (fun _ => rfl) rfl

end Service

end Reconciler
