import Reconciler.Informer.Outlets
import Reconciler.Proofs.Informer.Calls

/-!
# The errors of an informer

Four answers and items are failures: an answer to a list call, of a resync or not; an answer to a
watch call; and an item of a watch. The last two are no failures if they say that the version
expired, which is news and not trouble. Every failure is reported, and nothing else is.

A failure changes nothing but the phase. What the informer is about, a list of one mode or a watch
from one version, stays the same until it gets somewhere (`Phase.Moves`); resyncs that fail in
between, or pauses that a failure leads to, have no part in it.

As long as somebody receives the errors, an error leaves the loop when the channel takes it, and the
receiver gets it when it takes it from there. `Hearing` puts the three together.

## Main definitions

* `Input.failure?`, `failures`, `reports` : failures in a history, and the errors that are sent
* `Phase.resume?`, `Phase.Moves` : what the informer is about, and what changes that
* `Hearing` : an informer with the channel of its errors and a receiver

## Main results

* `State.step_of_failure`, `State.reports_step` : what a step makes of a failure and what it reports
* `Loop.Reachable.reported` : the errors that were sent are the failures
* `Hearing.exists_of_run` : every run can have a receiver
* `Hearing.errors_exact` : what the receiver gets, and how the loop goes on
-/

namespace Reconciler

namespace Informer

variable {β : Type}

/-! ### Failures -/

/-- The error of an input that is a failure. -/
def Input.failure? : Input β → Option Error
  | .listed (.error e) => some e
  | .opened (.error e) => if e.isGone then none else some e
  | .failed e => if e.isGone then none else some e
  | _ => none

/-- The failures in a history, in order. -/
def failures (past : List (Occurrence β)) : List Error :=
  (inputs past).filterMap fun x => x.2.failure?

/-- The informer was not cancelled. -/
def Uncancelled (past : List (Occurrence β)) : Prop := ∀ phase, (phase, .cancelled) ∉ inputs past

/-- The error that an output reports. -/
def Output.report? : Output β → Option Error
  | .report e => some e
  | _ => none

/-- The errors that outputs report, in order. -/
def reports (outs : List (Output β)) : List Error := outs.filterMap Output.report?

/-- The error that was reported, if that is what happened. -/
def Occurrence.report? : Occurrence β → Option Error
  | .carried out => out.report?
  | .took .. => none

@[simp] theorem failures_append_took (past : List (Occurrence β)) (t : Instant) (phase : Phase)
    (i : Input β) : failures (past ++ [.took t phase i]) = failures past ++ i.failure?.toList := by
  rw [failures, inputs_append_took, List.filterMap_append, failures]
  cases h : i.failure? <;> simp [h]

@[simp] theorem failures_append_carried (past : List (Occurrence β)) (out : Output β) :
    failures (past ++ [.carried out]) = failures past := by
  rw [failures, inputs_append_carried, failures]

@[simp] theorem uncancelled_append_took {past : List (Occurrence β)} {t : Instant} {phase : Phase}
    {i : Input β} :
    Uncancelled (past ++ [.took t phase i]) ↔ Uncancelled past ∧ i ≠ .cancelled := by
  simp only [Uncancelled, inputs_append_took, List.mem_append, List.mem_singleton, not_or,
    Prod.mk.injEq, not_and, forall_and, ne_comm]
  exact and_congr_right fun _ => ⟨fun h => h phase rfl, fun h _ _ => h⟩

@[simp] theorem uncancelled_append_carried {past : List (Occurrence β)} {out : Output β} :
    Uncancelled (past ++ [.carried out]) ↔ Uncancelled past := by
  rw [Uncancelled, inputs_append_carried, Uncancelled]

@[simp] theorem reports_nil : reports ([] : List (Output β)) = [] := rfl

@[simp] theorem reports_log (e : LogEvent) (outs : List (Output β)) :
    reports (.log e :: outs) = reports outs := rfl

@[simp] theorem reports_list (outs : List (Output β)) : reports (.list :: outs) = reports outs :=
  rfl

@[simp] theorem reports_watch (version : String) (outs : List (Output β)) :
    reports (.watch version :: outs) = reports outs := rfl

@[simp] theorem reports_send (route : Route) (o : Object β) (outs : List (Output β)) :
    reports (.send route o :: outs) = reports outs := rfl

@[simp] theorem reports_reportError (e : Error) :
    reports (State.reportError e : List (Output β)) = [e] := rfl

@[simp] theorem reports_append (outs outs' : List (Output β)) :
    reports (outs ++ outs') = reports outs ++ reports outs' :=
  List.filterMap_append

/-! ### What a step makes of a failure -/

/-- The phase that a failure leads to. -/
def Phase.afterFailure : Phase → Phase
  | .listing mode => .failing (.list mode)
  | .opening version => .failing (.watch version)
  | .resyncing rest => .resting rest
  | phase => phase

namespace State

/-- A failure is reported, and changes nothing but the phase: the cache, the queue of a resync, the
timers and the backoff stay as they are. -/
theorem step_of_failure {s : State β} {t : Instant} {i : Input β} {e : Error}
    (hi : s.Awaits t.time i) (he : i.failure? = some e) :
    s.step t i = ({ s with phase := s.phase.afterFailure }, reportError e) := by
  match i, he with
  | .listed (.error e), rfl =>
    obtain ⟨mode, hphase⟩ | ⟨rest, hphase⟩ := hi
    · simp only [step, hphase, stepListed, Phase.afterFailure]
    · simp only [step, hphase, stepResynced, Phase.afterFailure]
  | .opened (.error e'), he =>
    obtain ⟨version, hphase⟩ := hi
    obtain ⟨hgone, rfl⟩ : e'.isGone = false ∧ e' = e := by simpa [Input.failure?] using he
    simp [step, hphase, stepOpened, hgone, Phase.afterFailure]
  | .failed e', he =>
    obtain ⟨version, hphase⟩ := hi
    obtain ⟨hgone, rfl⟩ : e'.isGone = false ∧ e' = e := by simpa [Input.failure?] using he
    simp only [step, hphase, stepWatch, hgone, Phase.afterFailure, Bool.false_eq_true, if_false]
    rw [← hphase]

theorem reports_observeAll (mode : ListMode) (c : Cache) (items : List (Object β)) :
    reports (observeAll mode c items).2 = [] := by
  induction items generalizing c with
  | nil => rfl
  | cons o os ih =>
    have hfirst : reports (observeListed mode c o).2 = [] := by
      cases hknows : c.knows o <;> cases mode <;> simp [observeListed, Cache.observe, hknows]
    rw [observeAll, reports_append, hfirst, ih, List.append_nil]

theorem reports_forget (c : Cache) (items : List (Object β)) : reports (forget c items).2 = [] := by
  simp only [forget]
  split <;> rfl

theorem reports_handleEvent (s : State β) (e : WatchEvent β) :
    reports (s.handleEvent e).2 = [] := by
  have hchange (o : Object β) : reports (s.handleChange o).2 = [] := by
    rw [handleChange]
    split <;> rfl
  cases e with
  | added o => exact hchange o
  | modified o => exact hchange o
  | deleted o =>
    simp only [handleEvent]
    split <;> rfl
  | bookmark version => rfl

theorem reports_stepTimer (s : State β) (t : Instant) (rest : Rest) (i : Input β) :
    reports (s.stepTimer t rest i).2 = [] := by
  cases i with
  | resyncDue => rfl
  | pacedDue =>
    simp only [stepTimer, emitPaced]
    split
    · rfl
    · split <;> rfl
  | pauseOver => obtain _ | ⟨_, _ | _⟩ := rest <;> rfl
  | _ => rfl

theorem reports_stepWatch {s : State β} {i : Input β} (hi : i.failure? = none) (t : Instant)
    (version : String) : reports (s.stepWatch t version i).2 = [] := by
  cases i with
  | event e => exact (s.calm t).reports_handleEvent e
  | failed e =>
    have hgone : e.isGone = true := by simpa [Input.failure?] using hi
    simp [stepWatch, hgone, expire]
  | closed => rfl
  | _ => exact s.reports_stepTimer t (.watching version) _

/-- What is no failure is not reported. -/
theorem reports_step_of_no_failure {s : State β} {i : Input β} (hi : i.failure? = none)
    (t : Instant) : reports (s.step t i).2 = [] := by
  cases i with
  | listed r =>
    cases r with
    | error e => cases hi
    | ok l =>
      simp only [step]
      split
      · simp [stepListed, applyList, reopen, reports_observeAll, reports_forget]
      · simp only [stepResynced, applyResync, reports_append, reports_forget, List.append_nil]
        split <;> rfl
      · rfl
  | opened r =>
    simp only [step]
    split
    case h_2 => rfl
    case h_1 version hphase =>
      cases r with
      | ok u => rfl
      | error e =>
        have hgone : e.isGone = true := by simpa [Input.failure?] using hi
        simp [stepOpened, hgone, expire]
  | settled =>
    simp only [step]
    split <;> rfl
  | cancelled =>
    simp only [step]
    split <;> rfl
  | _ =>
    simp only [step]
    split
    · exact reports_stepWatch hi t _
    · exact s.reports_stepTimer t _ _
    · rfl

/-- A step reports its failure and nothing else. -/
theorem reports_step {s : State β} {t : Instant} {i : Input β} (hi : s.Awaits t.time i) :
    reports (s.step t i).2 = i.failure?.toList := by
  cases he : i.failure? with
  | none => exact reports_step_of_no_failure he t
  | some e =>
    rw [step_of_failure hi he]
    rfl

end State

namespace Loop

variable {config : Config} {l : Loop β}

/-- The errors reported so far, oldest first. -/
def reported (l : Loop β) : List Error := l.past.filterMap Occurrence.report?

@[simp] theorem reported_take (l : Loop β) (t : Instant) (i : Input β) :
    (l.take t i).reported = l.reported := by
  simp [reported, take, Occurrence.report?]

/-- Carrying an output out reports what it has to report. -/
theorem reported_carry (l : Loop β) (out : Output β) (rest : List (Output β)) :
    reported { l with pending := rest, past := l.past ++ [.carried out] } =
      l.reported ++ out.report?.toList := by
  simp only [reported, List.filterMap_append, List.filterMap_cons, List.filterMap_nil]
  cases h : out.report? <;> simp [Occurrence.report?, h]

/-- The errors that were reported and those that are still to be reported are the failures. -/
theorem Reachable.reported (hl : Reachable config l) :
    Uncancelled l.past → l.reported ++ reports l.pending = failures l.past := by
  refine hl.invariant (P := fun l => Uncancelled l.past →
    l.reported ++ reports l.pending = failures l.past) ?_ ?_
  · intro now _
    rfl
  · intro l l' hstep h hun
    cases hstep with
    | @carry out rest hp =>
      have hwhole : reports l.pending = out.report?.toList ++ reports rest := by
        rw [hp, reports, List.filterMap_cons]
        cases out.report? <;> rfl
      rw [reported_carry, List.append_assoc, ← hwhole, failures_append_carried]
      exact h (uncancelled_append_carried.1 hun)
    | take t i hp ht hi =>
      have hbefore := h (uncancelled_append_took.1 hun).1
      rw [hp, reports_nil, List.append_nil] at hbefore
      rw [reported_take, take_pending, State.reports_step hi, hbefore]
      exact (failures_append_took l.past t l.machine.phase i).symm
    | cancel t ht hs => exact absurd rfl (uncancelled_append_took.1 hun).2

end Loop

/-! ### What the informer is about -/

/-- What a rest is for. -/
def Rest.resume : Rest → Resume
  | .watching version => .watch version
  | .pausing _ resume => resume

/-- What the informer is about: a list of one mode, or a watch from one version. -/
def Phase.resume? : Phase → Option Resume
  | .listing mode => some (.list mode)
  | .opening version => some (.watch version)
  | .resting rest => some rest.resume
  | .resyncing rest => some rest.resume
  | .failing resume => some resume
  | .stopped => none

/-- The input gets the informer somewhere: a list of its own succeeds, the watch reports a change,
the version expires, or it is cancelled. -/
def Phase.Moves : Phase → Input β → Prop
  | .listing _, .listed (.ok _) => True
  | _, .event _ => True
  | _, .opened (.error e) => e.isGone = true
  | _, .failed e => e.isGone = true
  | _, .cancelled => True
  | _, _ => False

/-- Nothing in the history got the informer anywhere. -/
def Unmoved (past : List (Occurrence β)) : Prop := ∀ x ∈ inputs past, ¬ x.1.Moves x.2

/-- Along an arrow that gets it nowhere the informer stays with what it is about. -/
theorem Phase.Next.resume?_eq {phase phase' : Phase} {i : Input β} {cs : List Call}
    (hnext : phase.Next i phase' cs) (hi : ¬ phase.Moves i) : phase'.resume? = phase.resume? := by
  cases hnext with
  | listed => exact absurd trivial hi
  | expiredBefore version he => exact absurd he hi
  | expired version he => exact absurd he hi
  | event => exact absurd trivial hi
  | cancelled =>
    simp [Phase.Moves] at hi
  | _ => rfl

/-- A failure gets the informer nowhere. -/
theorem Phase.not_moves_of_failure {i : Input β} {e : Error} (he : i.failure? = some e)
    (phase : Phase) : ¬ phase.Moves i := by
  match i, he with
  | .listed (.error e), _ => cases phase <;> exact id
  | .opened (.error e'), he =>
    have hgone : e'.isGone = false := (by simpa [Input.failure?] using he : _ ∧ _).1
    cases phase <;> simp [Phase.Moves, hgone]
  | .failed e', he =>
    have hgone : e'.isGone = false := (by simpa [Input.failure?] using he : _ ∧ _).1
    cases phase <;> simp [Phase.Moves, hgone]

@[simp] theorem unmoved_append_took {past : List (Occurrence β)} {t : Instant} {phase : Phase}
    {i : Input β} : Unmoved (past ++ [.took t phase i]) ↔ Unmoved past ∧ ¬ phase.Moves i := by
  simp [Unmoved, or_imp, forall_and]

@[simp] theorem unmoved_append_carried {past : List (Occurrence β)} {out : Output β} :
    Unmoved (past ++ [.carried out]) ↔ Unmoved past := by
  rw [Unmoved, inputs_append_carried, Unmoved]

/-- The phases in which the informer is just doing what it is about. -/
def Resume.Tried : Resume → Phase → Prop
  | .list mode, phase => phase = .listing mode
  | .watch version, phase => phase = .opening version ∨ phase = .resting (.watching version)

namespace Loop

variable {config : Config} {l l' : Loop β}

/-- Until it gets somewhere, an informer stays with what it is about. -/
theorem resume?_of_run (hrun : Run l l') : ∃ since, l'.past = l.past ++ since ∧
    (Unmoved since → l'.machine.phase.resume? = l.machine.phase.resume?) := by
  induction hrun with
  | refl => exact ⟨[], by simp, fun _ => rfl⟩
  | @tail m l' hrun hstep ih =>
    obtain ⟨since, hpast, hsame⟩ := ih
    have htaken (t : Instant) {i : Input β} (hi : m.machine.Awaits t.time i ∨ i = .cancelled) :
        ∃ since, (m.take t i).past = l.past ++ since ∧ (Unmoved since →
          (m.take t i).machine.phase.resume? = l.machine.phase.resume?) := by
      refine ⟨since ++ [.took t m.machine.phase i], by simp [take, hpast], fun hun => ?_⟩
      obtain ⟨hbefore, hstays⟩ := unmoved_append_took.1 hun
      exact ((State.next_step hi).resume?_eq hstays).trans (hsame hbefore)
    cases hstep with
    | @carry out rest hp =>
      exact ⟨since ++ [.carried out], by simp [hpast],
        fun hun => hsame (unmoved_append_carried.1 hun)⟩
    | take t i hp ht hi => exact htaken t (.inl hi)
    | cancel t ht hs => exact htaken t (.inr rfl)

/-- Only a cancellation ends the loop. -/
theorem Reachable.phase_ne_stopped (hl : Reachable config l) :
    Uncancelled l.past → l.machine.phase ≠ .stopped := by
  refine hl.invariant_of_next (P := fun past phase _ => Uncancelled past → phase ≠ .stopped)
    ?_ ?_ ?_
  · intro _ h
    cases h
  · intro past phase out cs h hun
    exact h (uncancelled_append_carried.1 hun)
  · intro past phase cs t i phase' cs' hnext _ hun hstopped
    cases hnext with
    | cancelled => exact (uncancelled_append_took.1 hun).2 rfl
    | _ => cases hstopped

/-- What the informer is about is tried again when the pause is over. -/
theorem exists_run_tried_of_pausing {until_ : Duration} {resume : Resume}
    (hphase : l.machine.phase = .resting (.pausing until_ resume)) :
    ∃ l', Run l l' ∧ resume.Tried l'.machine.phase := by
  cases resume with
  | list mode => exact exists_run_listing_of_pausing hphase
  | watch version =>
    obtain ⟨t, hrun⟩ := exists_run_pauseOver hphase
    refine ⟨_, hrun, .inl ?_⟩
    simp only [take_machine, settle_machine, State.step, hphase, State.stepTimer, State.reopen]

/-- A rest leads to what it is for. -/
theorem exists_run_tried_of_resting {rest : Rest} (hphase : l.machine.phase = .resting rest) :
    ∃ l', Run l l' ∧ rest.resume.Tried l'.machine.phase := by
  cases rest with
  | watching version => exact ⟨l, .refl, .inr hphase⟩
  | pausing until_ resume => exact exists_run_tried_of_pausing hphase

/-- What the informer is about can always be tried. -/
theorem exists_run_tried {resume : Resume} (h : l.machine.phase.resume? = some resume) :
    ∃ l', Run l l' ∧ resume.Tried l'.machine.phase := by
  cases hphase : l.machine.phase with
  | listing mode =>
    rw [hphase] at h
    cases h
    exact ⟨l, .refl, hphase⟩
  | opening version =>
    rw [hphase] at h
    cases h
    exact ⟨l, .refl, .inl hphase⟩
  | resting rest =>
    rw [hphase] at h
    cases h
    exact exists_run_tried_of_resting hphase
  | resyncing rest =>
    -- the list that the resync waits for may fail as well
    rw [hphase] at h
    cases h
    let t : Instant := ⟨l.now, default⟩
    have hnow : l.now ≤ t.time := Duration.le_iff.2 (Nat.le_refl _)
    let i : Input β := .listed (.error default)
    have hstep : Step l.settle (l.settle.take t i) := .take t i rfl hnow (.inr ⟨rest, hphase⟩)
    have hrests : (l.settle.take t i).machine.phase = .resting rest := by
      simp only [i, take_machine, settle_machine, State.step, hphase, State.stepResynced]
    obtain ⟨l', hrun, htried⟩ := exists_run_tried_of_resting hrests
    exact ⟨l', (l.run_settle.tail hstep).trans hrun, htried⟩
  | failing resume' =>
    rw [hphase] at h
    cases h
    obtain ⟨l₁, hpauses, until_, hpausing⟩ := exists_run_pausing hphase
    obtain ⟨l', hrun, htried⟩ := exists_run_tried_of_pausing hpausing
    exact ⟨l', hpauses.trans hrun, htried⟩
  | stopped =>
    rw [hphase] at h
    cases h

end Loop

/-! ### The receiver of the errors -/

/-- An informer at work, the channel of its errors, and what the receiver took from it. -/
structure Hearing (β : Type) where
  /-- The informer. -/
  loop : Loop β
  /-- The channel. -/
  errors : Channel Error
  /-- What was received, oldest first. -/
  received : List Error := []

namespace Hearing

variable {config : Config} {h : Hearing β} {l : Loop β}

/-- The informer as it starts, with an empty channel. -/
def start (config : Config) (now : Duration) : Hearing β :=
  { loop := .start config now, errors := { capacity := config.capacity } }

/-- One step. The receiver never goes away. -/
inductive Step : Hearing β → Hearing β → Prop where
  /-- The informer takes a step that reports nothing. -/
  | quiet {h : Hearing β} {l : Loop β} (hs : Loop.Step h.loop l)
      (hreported : l.reported = h.loop.reported) : Step h { h with loop := l }
  /-- It reports an error, which the channel has room for. -/
  | send {h : Hearing β} {l : Loop β} {e : Error} {errors : Channel Error}
      (hs : Loop.Step h.loop l) (hreported : l.reported = h.loop.reported ++ [e])
      (hoffer : h.errors.offer e = .sent errors) : Step h { h with loop := l, errors := errors }
  /-- The receiver takes an error. -/
  | receive {h : Hearing β} {e : Error} {errors : Channel Error}
      (htake : h.errors.take? = some (e, errors)) :
      Step h { h with errors := errors, received := h.received ++ [e] }

/-- The states that an informer with a configuration can come to. -/
def Reachable (config : Config) (h : Hearing β) : Prop :=
  ∃ now, Relation.ReflTransGen Step (start config now) h

/-- The loop of an informer with a receiver is at work like any other. -/
theorem Reachable.loop (hh : Reachable config h) : Loop.Reachable config h.loop := by
  obtain ⟨now, hrun⟩ := hh
  induction hrun with
  | refl => exact .start config now
  | tail _ hstep ih =>
    cases hstep with
    | quiet hs _ => exact ih.step hs
    | send hs _ _ => exact ih.step hs
    | receive _ => exact ih

/-- What was received, and what is left in the channel, are the errors that were reported. -/
theorem Reachable.received_append_items (hh : Reachable config h) :
    h.received ++ h.errors.items = h.loop.reported := by
  obtain ⟨now, hrun⟩ := hh
  induction hrun with
  | refl => rfl
  | @tail h h' _ hstep ih =>
    cases hstep with
    | quiet hs hreported => exact ih.trans hreported.symm
    | @send l e errors hs hreported hoffer =>
      rw [Channel.items_of_offer hoffer, ← List.append_assoc, ih, hreported]
    | @receive e errors htake =>
      rw [← ih, Channel.items_of_take? htake, List.append_assoc, List.singleton_append]

/-- Every run of an informer can have a receiver, who takes each error as soon as it is there. -/
theorem exists_of_run (hcapacity : 0 < config.capacity) (hl : Loop.Reachable config l) :
    ∃ h, Reachable config h ∧ h.loop = l ∧
      h.errors = { capacity := config.capacity } := by
  obtain ⟨now, hrun⟩ := hl
  induction hrun with
  | refl => exact ⟨start config now, ⟨now, .refl⟩, rfl, rfl⟩
  | @tail l l' _ hstep ih =>
    obtain ⟨h, ⟨now', hh⟩, rfl, hempty⟩ := ih
    -- a step reports nothing or one error, for which the empty channel has room
    have hcases : l'.reported = h.loop.reported ∨ ∃ e, l'.reported = h.loop.reported ++ [e] := by
      cases hstep with
      | @carry out rest hp =>
        rw [Loop.reported_carry]
        cases out.report? with
        | none => exact .inl (List.append_nil _)
        | some e => exact .inr ⟨e, rfl⟩
      | take t i hp ht hi => exact .inl (Loop.reported_take _ t i)
      | cancel t ht hs => exact .inl (Loop.reported_take _ t .cancelled)
    rcases hcases with hquiet | ⟨e, hreported⟩
    · exact ⟨_, ⟨now', hh.tail (.quiet hstep hquiet)⟩, rfl, hempty⟩
    · have hoffer : h.errors.offer e = .sent { h.errors with items := [e] } := by
        simp [Channel.offer, hempty, hcapacity]
      have htake : Channel.take? { h.errors with items := [e] } = some (e, h.errors) := by
        simp [Channel.take?, hempty]
      have hsent := hh.tail (.send hstep hreported hoffer)
      exact ⟨_, ⟨now', hsent.tail (.receive htake)⟩, rfl, hempty⟩

/-- What becomes of failures as long as somebody receives the errors. -/
structure Exact (config : Config) (h : Hearing β) : Prop where
  /-- What was received, what is left in the channel, and what is still to be reported are the
  failures, in order and once each. -/
  stream : h.received ++ h.errors.items ++ reports h.loop.pending = failures h.loop.past
  /-- The loop goes on. -/
  goesOn : h.loop.machine.phase ≠ .stopped
  /-- A failure changed nothing but the phase: not the cache, and not the queue of a resync. -/
  kept : ∀ before t phase i after e, h.loop.past = before ++ .took t phase i :: after →
    i.failure? = some e → ∃ l, Loop.Reachable config l ∧ l.past = before ∧
      l.machine.phase = phase ∧
      (l.take t i).machine = { l.machine with phase := phase.afterFailure } ∧
      Loop.Run (l.take t i) h.loop
  /-- After a failure the informer stays with what it was about until it gets somewhere. -/
  stays : ∀ before t phase i after e, h.loop.past = before ++ .took t phase i :: after →
    i.failure? = some e → Unmoved after → h.loop.machine.phase.resume? = phase.resume?
  /-- And it can always try it again. -/
  retries : ∀ resume, h.loop.machine.phase.resume? = some resume →
    ∃ l, Loop.Run h.loop l ∧ resume.Tried l.machine.phase

/-- A receiver gets every failure, in order and once, and nothing else. No failure ends the loop,
touches the cache or the queue of a resync, or takes it to another list or another version. -/
theorem errors_exact (hh : Reachable config h) (hun : Uncancelled h.loop.past) :
    h.Exact config where
  stream := by
    rw [hh.received_append_items]
    exact hh.loop.reported hun
  goesOn := hh.loop.phase_ne_stopped hun
  kept before t phase i after e hpast he := by
    obtain ⟨l, hl, hbefore, hphase, hi, -, hrun⟩ := Loop.exists_take hh.loop hpast
    have hawaits : l.machine.Awaits t.time i := by
      rcases hi with ⟨-, hi⟩ | rfl
      · exact hi
      · cases he
    refine ⟨l, hl, hbefore, hphase, ?_, hrun⟩
    rw [Loop.take_machine, State.step_of_failure hawaits he, hphase]
  stays before t phase i after e hpast he hunmoved := by
    obtain ⟨l, hl, rfl, rfl, hi, -, hrun⟩ := Loop.exists_take hh.loop hpast
    obtain ⟨since, hsince, hsame⟩ := Loop.resume?_of_run hrun
    have hafter : since = after := by
      have htaken : (l.take t i).past = l.past ++ [.took t l.machine.phase i] := rfl
      rw [htaken, hpast, List.append_assoc] at hsince
      exact (List.cons.inj (List.append_cancel_left hsince)).2.symm
    have hstays : (l.take t i).machine.phase.resume? = l.machine.phase.resume? :=
      (State.next_step (hi.imp_left And.right)).resume?_eq (Phase.not_moves_of_failure he _)
    exact (hsame (hafter ▸ hunmoved)).trans hstays
  retries _ := Loop.exists_run_tried

/-- An item of the watch is an error, a resync fails, the version turns out to be expired when the
watch is opened again, and then a list fails. -/
def troubled : List (Instant × Input Unit) :=
  [(.ofMillis 0, .listed (.ok ⟨[sample "a" "1" false], "1"⟩)),
    (.ofMillis 0, .opened (.ok ())),
    (.ofMillis 200, .failed (.transport "reset")),
    (.ofMillis 1000, .resyncDue),
    (.ofMillis 1000, .listed (.error (.timeout "list" "no answer"))),
    (.ofMillis 1200, .closed),
    (.ofMillis 1200, .opened (.error (.watch 410 "expired"))),
    (.ofMillis 1400, .listed (.error (.transport "refused")))]

/-- All of these but the expired version are received, and the list that failed can be tried
again. -/
theorem errors_exact_troubled :
    ∃ h : Hearing Unit, Reachable { resync := .ofMillis 1000 } h ∧ Uncancelled h.loop.past ∧
      h.received ++ h.errors.items =
        [.transport "reset", .timeout "list" "no answer", .transport "refused"] ∧
      ∃ l, Loop.Run h.loop l ∧ l.machine.phase = .listing .relist := by
  have hl : Loop.Reachable { resync := .ofMillis 1000 }
      ((Loop.start { resync := .ofMillis 1000 } .zero).play troubled) := by
    refine (Loop.Reachable.start _ _).play ⟨?_, ?_, ?_, ?_, ?_, ?_, ?_, ?_, ?_, ?_, ?_, ?_, ?_, ?_,
      ?_, ?_, trivial⟩
    · decide
    · exact .inl ⟨.seed, rfl⟩
    · decide
    · exact ⟨"1", rfl⟩
    · decide
    · exact ⟨"1", rfl⟩
    · decide
    · exact ⟨.ofMillis 1000, .head _, by decide⟩
    · decide
    · exact .inr ⟨_, rfl⟩
    · decide
    · exact ⟨"1", rfl⟩
    · decide
    · exact ⟨"1", rfl⟩
    · decide
    · exact .inl ⟨.relist, rfl⟩
  obtain ⟨h, hh, hloop, -⟩ := exists_of_run (by decide) hl
  have hun : Uncancelled h.loop.past := by
    have hinputs : inputs h.loop.past =
        [(.listing .seed, .listed (.ok ⟨[sample "a" "1" false], "1"⟩)),
          (.opening "1", .opened (.ok ())),
          (.resting (.watching "1"), .failed (.transport "reset")),
          (.resting (.watching "1"), .resyncDue),
          (.resyncing (.watching "1"), .listed (.error (.timeout "list" "no answer"))),
          (.resting (.watching "1"), .closed),
          (.opening "1", .opened (.error (.watch 410 "expired"))),
          (.listing .relist, .listed (.error (.transport "refused")))] := by
      rw [hloop]
      rfl
    simp [Uncancelled, hinputs]
  have hexact := errors_exact hh hun
  have hstream := hexact.stream
  rw [show reports h.loop.pending = [] by rw [hloop]; rfl, List.append_nil] at hstream
  refine ⟨h, hh, hun, hstream.trans (by rw [hloop]; rfl), ?_⟩
  exact hexact.retries (.list .relist) (by rw [hloop]; rfl)

end Hearing

end Informer

end Reconciler
