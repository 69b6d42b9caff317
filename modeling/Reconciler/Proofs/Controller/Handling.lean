import Reconciler.Proofs.Controller.Recording
import Reconciler.Proofs.Controller.Schema
import Reconciler.Proofs.Controller.Service

/-!
# Every item is handled once

A service keeps a record of what its informer sent, of what it took and of what it did about each
item. This module says how the three belong together, in every run and at every moment of it: what
was taken from a stream is the beginning of what was sent on it, what was taken was handled, and the
series of the stream has counted it. A pass may fail in any way; what comes after it does not depend
on that.

## Main definitions

* `Job.Faithful` : an item was counted, and then followed what a controller does about it
* `Service.Prompt` : nothing was overtaken that should have come first
* `Service.HandlesEach` : every item that was sent is handled once, in order, or still waits

## Main results

* `Service.Reachable.received` : nothing is lost or repeated between the informer and the controller
* `Service.Reachable.faithful` : every job is the handling of its item
* `Service.value_of_forall_faithful` : what the series of a stream counts
* `Service.Stands.readied` : the definition of the kind is brought into service first
* `Service.run_of_serves` : whatever the handling of an item comes to, the next one can follow
* `Service.Reachable.handlesEach` : all of it holds in every run
-/

namespace Reconciler

open Program (Act Runs measured measured_append)
open Informer (Loop)

variable {I : Interface} {β P ι : Type} {c : Controller I β P ι}

/-- The item was counted, and then followed what a controller does about it. -/
def Job.Faithful (c : Controller I β P ι) (j : Job I β) : Prop :=
  ∃ later, j.acts = .signalled (.measure (c.metrics.eventSeries j.item.stream)) :: later ∧
    Runs (c.respond j.item) later j.result

namespace Service

variable {v v' : Service I β}

/-! ### What is sent, taken and handled -/

/-- What was taken from a stream is the beginning of what was sent on it, and the rest waits. -/
theorem Reachable.received (hv : Reachable c v) (s : Stream) :
    onStream s (sentIn v.past) = onStream s (takenIn v.past) ++ v.waiting s := by
  refine hv.invariant (Q := fun v =>
    onStream s (sentIn v.past) = onStream s (takenIn v.past) ++ v.waiting s) rfl ?_
  intro v v' hrun hstep h
  cases hstep.effect hrun with
  | quiet hnotices hpast hwaiting =>
    simp only [hpast, sentIn_append, takenIn_append, sentIn_notices hnotices,
      takenIn_notices hnotices, List.append_nil, hwaiting, h]
  | informed hpast hwaiting => simp [hpast, hwaiting, h]
  | took hpast hwaiting => simp [hpast, h, hwaiting]
  | worked hpast hwaiting => simp only [hpast, hwaiting, h]
  | finished hpast hwaiting => simp [hpast, hwaiting, h]

/-- When an item was taken, all that had been sent on the streams before its own was taken. -/
def Prompt (past : List (Entry I β)) : Prop :=
  ∀ before item after, past = before ++ .took item :: after → ∀ s : Stream,
    s.Precedes item.stream → onStream s (sentIn before) = onStream s (takenIn before)

theorem Prompt.append {past later : List (Entry I β)} (h : Prompt past)
    (hlater : ∀ before item after, later = before ++ .took item :: after → ∀ s : Stream,
      s.Precedes item.stream →
        onStream s (sentIn (past ++ before)) = onStream s (takenIn (past ++ before))) :
    Prompt (past ++ later) := by
  intro before item after heq s hs
  rcases List.append_eq_append_iff.1 heq with ⟨more, rfl, hmore⟩ | ⟨more, rfl, hmore⟩
  · exact hlater more item after hmore s hs
  · cases more with
    | nil =>
      have hnow := hlater [] item after hmore.symm s hs
      simpa using hnow
    | cons x more =>
      obtain ⟨rfl, -⟩ := List.cons.inj hmore
      exact h before item more rfl s hs

/-- Nothing is added if nothing is taken. -/
theorem Prompt.append_of_notMem {past later : List (Entry I β)} (h : Prompt past)
    (hlater : ∀ item, .took item ∉ later) : Prompt (past ++ later) := by
  refine h.append ?_
  rintro before item after rfl
  exact absurd (by simp) (hlater item)

theorem Reachable.prompt (hv : Reachable c v) : Prompt v.past := by
  refine hv.invariant (Q := fun v => Prompt v.past) ?_ ?_
  · intro before item after heq
    simp [start] at heq
  intro v v' hrun hstep h
  cases hstep.effect hrun with
  | quiet hnotices hpast =>
    rw [hpast]
    exact h.append_of_notMem fun item hmem => by cases hnotices _ hmem
  | informed hpast =>
    rw [hpast]
    exact h.append_of_notMem (by simp)
  | @took item a rest hpast _ hbefore =>
    rw [hpast]
    refine h.append fun before item' after heq s hs => ?_
    cases before with
    | cons x before => simp at heq
    | nil =>
      obtain ⟨rfl, -⟩ : item = item' ∧ after = [] := by simpa using heq
      have hreceived := hrun.received s
      rw [hbefore s hs, List.append_nil] at hreceived
      simpa using hreceived
  | worked hpast =>
    rw [hpast]
    exact h
  | finished hpast =>
    rw [hpast]
    exact h.append_of_notMem (by simp)

/-- Every item that was taken is handled, one after the other. -/
theorem Reachable.taken_eq (hv : Reachable c v) : takenIn v.past = v.jobs.map Job.item := by
  refine hv.invariant (Q := fun v => takenIn v.past = v.jobs.map Job.item) rfl ?_
  intro v v' hrun hstep h
  cases hstep.effect hrun with
  | quiet hnotices hpast _ hwork =>
    simp only [jobs, hpast, hwork, takenIn_append, finishedIn_append, takenIn_notices hnotices,
      finishedIn_notices hnotices, List.append_nil]
    exact h
  | informed hpast _ hwork => simpa [jobs, hpast, hwork] using h
  | took hpast _ _ hidle hwork => simpa [jobs, hpast, hidle, hwork, Work.job] using h
  | worked hpast _ hwork hwork' => simpa [jobs, hpast, hwork, hwork', Work.job] using h
  | finished hpast _ hwork hidle => simpa [jobs, hpast, hwork, hidle, Work.job] using h

/-- What is over came to its end, and what is left of the current work continues it. -/
theorem Reachable.works (hv : Reachable c v) :
    (∀ j ∈ finishedIn v.past, j.Faithful c ∧ j.result = some ()) ∧
      ∀ w, v.work? = some w → ∀ as r, Runs w.rest as r →
        Job.Faithful c ⟨w.item, w.acts ++ as, r⟩ := by
  refine hv.invariant (Q := fun v => (∀ j ∈ finishedIn v.past, j.Faithful c ∧ j.result = some ()) ∧
    ∀ w, v.work? = some w → ∀ as r, Runs w.rest as r →
      Job.Faithful c ⟨w.item, w.acts ++ as, r⟩) ?_ ?_
  · exact ⟨by simp [start, finishedIn], by simp [start, work?]⟩
  intro v v' hrun hstep h
  obtain ⟨hover, hgoes⟩ := h
  cases hstep.effect hrun with
  | quiet hnotices hpast _ hwork =>
    rw [hpast, finishedIn_append, finishedIn_notices hnotices, List.append_nil, hwork]
    exact ⟨hover, hgoes⟩
  | informed hpast _ hwork =>
    rw [hpast, finishedIn_append, finishedIn_informed, List.append_nil, hwork]
    exact ⟨hover, hgoes⟩
  | took hpast _ _ _ hwork hfirst =>
    rw [hpast, finishedIn_append, finishedIn_took, List.append_nil, hwork]
    refine ⟨hover, ?_⟩
    rintro w ⟨⟩ as r hrest
    rw [Controller.handle_eq] at hfirst
    cases hfirst
    exact ⟨as, rfl, hrest⟩
  | worked hpast _ hwork hwork' hact =>
    rw [hpast, hwork']
    refine ⟨hover, ?_⟩
    rintro w ⟨⟩ as r hrest
    rw [List.append_assoc]
    exact hgoes _ hwork _ r (.step hact hrest)
  | finished hpast _ hwork hidle =>
    rw [hpast, finishedIn_append, finishedIn_handled, hidle]
    refine ⟨List.forall_mem_append.2 ⟨hover, ?_⟩, by simp⟩
    have hend := hgoes _ hwork [] (some ()) (.done ())
    rw [List.append_nil] at hend
    simpa using hend

/-- Every job is the handling of its item. -/
theorem Reachable.faithful (hv : Reachable c v) : ∀ j ∈ v.jobs, j.Faithful c := by
  obtain ⟨hover, hgoes⟩ := hv.works
  refine List.forall_mem_append.2 ⟨fun j hj => (hover j hj).1, fun j hj => ?_⟩
  obtain ⟨w, hw, rfl⟩ : ∃ w, v.work? = some w ∧ w.job = j := by simpa using hj
  have hsofar := hgoes w hw [] none (.cut _)
  rwa [List.append_nil] at hsofar

/-! ### The counts -/

theorem value_of_faithful {j : Job I β} (h : j.Faithful c) (s : Stream) :
    Metrics.value (measured j.acts) (c.metrics.eventSeries s) =
      (onStream s [j.item]).length +
        Metrics.value (measured j.acts.tail) (c.metrics.eventSeries s) := by
  obtain ⟨later, hacts, -⟩ := h
  have hmeasured : measured j.acts =
      c.metrics.eventSeries j.item.stream :: measured j.acts.tail := by
    rw [hacts]
    rfl
  rw [hmeasured, Metrics.value, Metrics.value, List.count_cons, Nat.add_comm]
  by_cases hstream : j.item.stream = s
  · simp [hstream, onStream]
  · have hother : c.metrics.eventSeries j.item.stream ≠ c.metrics.eventSeries s :=
      mt ControllerMetrics.eventSeries_inj.1 hstream
    simp [hstream, hother, onStream]

/-- Each item is counted once, and whatever else is recorded is recorded by the responses. -/
theorem value_of_forall_faithful {js : List (Job I β)} (h : ∀ j ∈ js, j.Faithful c) (s : Stream) :
    Metrics.value (measured (js.flatMap Job.acts)) (c.metrics.eventSeries s) =
      (onStream s (js.map Job.item)).length +
        Metrics.value (measured (js.flatMap fun j => j.acts.tail)) (c.metrics.eventSeries s) := by
  induction js with
  | nil => rfl
  | cons j js ih =>
    obtain ⟨hj, hjs⟩ := List.forall_mem_cons.1 h
    have hfirst := value_of_faithful hj s
    have hrest := ih hjs
    have hitems : onStream s ((j :: js).map Job.item) =
        onStream s [j.item] ++ onStream s (js.map Job.item) := by
      rw [List.map_cons, ← List.singleton_append, onStream_append]
    rw [hitems, List.length_append, List.flatMap_cons, List.flatMap_cons, measured_append,
      measured_append]
    simp only [Metrics.value, List.count_append] at hfirst hrest ⊢
    omega

/-- The responses to items record nothing on the series of a stream if the resources do not. -/
theorem value_later_eq_zero {js : List (Job I β)} (h : ∀ j ∈ js, j.Faithful c) {s : Stream}
    (hresources : ¬ c.Records (c.metrics.eventSeries s)) :
    Metrics.value (measured (js.flatMap fun j => j.acts.tail)) (c.metrics.eventSeries s) = 0 := by
  refine List.count_eq_zero.2 fun hmem => ?_
  obtain ⟨j, hj, hact⟩ := List.mem_flatMap.1 (Program.mem_measured.1 hmem)
  obtain ⟨later, hacts, hruns⟩ := h j hj
  rw [hacts, List.tail_cons] at hact
  exact Controller.only_respond hresources j.item later _ hruns _ hact rfl

/-! ### Going on -/

/-- The preparation can be run up to its result. -/
theorem run_of_prepares {p : Program definitions (Except Error Unit)}
    (hstage : v.stage = .preparing p) {as : List (Act definitions)} {x : Except Error Unit}
    (h : Runs p as (some x)) : Relation.ReflTransGen (Step c) v
      { v with stage := .preparing (.done x), preparation := v.preparation ++ as } := by
  generalize hr : some x = r at h
  induction h generalizing v with
  | cut => cases hr
  | done y =>
    cases hr
    rw [List.append_nil, ← hstage]
  | @step p p' a as r hact _ ih =>
    have hrest := ih (v := { v with stage := .preparing p', preparation := v.preparation ++ [a] })
      rfl hr
    rw [List.append_assoc, List.singleton_append] at hrest
    exact .head (.prepare hstage hact) hrest

/-- If it succeeds then the controller can go to work. -/
theorem run_of_prepares_ok {p : Program definitions (Except Error Unit)}
    (hstage : v.stage = .preparing p) {as : List (Act definitions)}
    (h : Runs p as (some (.ok ()))) (now : Duration) : Relation.ReflTransGen (Step c) v
      { v with
        stage := .serving
        feed := some (.start c.informer now)
        preparation := v.preparation ++ as
        past := v.past ++ [.prepared (v.preparation ++ as) (.ok ()), .logged c.greeting] } :=
  (run_of_prepares hstage h).tail (.serve now rfl)

/-- Its result decides how the controller goes on. -/
theorem exists_run_of_prepares {p : Program definitions (Except Error Unit)}
    (hstage : v.stage = .preparing p) {as : List (Act definitions)} {x : Except Error Unit}
    (h : Runs p as (some x)) :
    ∃ v', Relation.ReflTransGen (Step c) v v' ∧ v'.stage = .afterPreparing x := by
  cases x with
  | ok u => exact ⟨_, run_of_prepares_ok hstage h (.ofMillis 0), rfl⟩
  | error e => exact ⟨_, (run_of_prepares hstage h).tail (.refuse rfl), rfl⟩

/-- The handling of an item can be run to its end. -/
theorem run_of_runs {item : Received β} {p : Controller.Task I β Unit}
    (hstage : v.stage = .handling item p) {as : List (Act (controllerInterface I β))}
    (h : Runs p as (some ())) :
    Relation.ReflTransGen (Step c) v { v with
      stage := .serving
      course := []
      past := v.past ++ [.handled ⟨item, v.course ++ as, some ()⟩] } := by
  generalize hr : some () = r at h
  induction h generalizing v with
  | cut => cases hr
  | done u =>
    rw [List.append_nil]
    exact .single (.finish hstage)
  | @step p p' a as r hact _ ih =>
    have hrest := ih (v := { v with stage := .handling item p', course := v.course ++ [a] }) rfl hr
    rw [List.append_assoc, List.singleton_append] at hrest
    exact .head (.act hstage hact) hrest

/-- Whatever the handling of the next item comes to, the controller waits for another one
afterwards. -/
theorem run_of_serves {f : Feed β} (hstage : v.stage = .serving) (hcancelled : v.cancelled = false)
    (hfeed : v.feed = some f) {item : Received β} {outlets : Outlets β}
    (htake : f.outlets.take? = some (item, outlets)) {as : List (Act (controllerInterface I β))}
    {x : Except Error Unit} (h : Runs (c.serve item) as (some x)) :
    Relation.ReflTransGen (Step c) v { v with
      stage := .serving
      feed := some { f with outlets := outlets }
      course := []
      past := v.past ++ [.took item, .handled ⟨item, as, some ()⟩] } := by
  have hattend : c.attend v.cancelled f.outlets =
      some (.handling item (c.handle item), outlets) := by
    rw [hcancelled, Controller.attend, htake]
    rfl
  have hhandle : Runs (c.handle item) as (some ()) := by
    rw [Controller.handle_eq_serve, ← List.append_nil as]
    exact h.bind (.done ())
  rw [Controller.handle_eq] at hhandle
  obtain ⟨a, as, rest, rfl, hfirst, hrest⟩ : ∃ a as' rest, as = a :: as' ∧
      Program.Step (c.handle item) a rest ∧ Runs rest as' (some ()) := by
    rw [Controller.handle_eq]
    cases hhandle with
    | step hfirst hrest => exact ⟨_, _, _, rfl, hfirst, hrest⟩
  have hjob := run_of_runs (c := c) (v := { v with
    stage := .handling item rest
    feed := some { f with outlets := outlets }
    course := [a]
    past := v.past ++ [.took item] }) rfl hrest
  rw [List.append_assoc, List.singleton_append, List.singleton_append] at hjob
  exact .head (.take hstage hfeed hattend hfirst) hjob

/-! ### Every item is handled once -/

/-- The items that were sent are handled once, in order, or they wait; nothing but a cancellation
keeps the controller from going on. Without a definition in service nothing is done at all. -/
structure HandlesEach (c : Controller I β P ι) (v : Service I β) : Prop where
  /-- The informer is one that runs with the tuning of the controller. -/
  informed : ∀ f, v.feed = some f →
    Loop.Reachable c.informer f.loop ∧ occurrencesIn v.past = f.loop.past
  /-- What was handled of a stream is the beginning of what was sent on it, and the rest waits. -/
  received : ∀ s, onStream s (sentIn v.past) = onStream s (v.jobs.map Job.item) ++ v.waiting s
  /-- An item is taken only if nothing waits on the streams that precede its own. -/
  prompt : Prompt v.past
  /-- Every item that was taken is handled, one after the other. -/
  taken : takenIn v.past = v.jobs.map Job.item
  /-- An item is handled by counting it and then by the pass, or the notice, for it. -/
  faithful : ∀ j ∈ v.jobs, j.Faithful c
  /-- No job is left before its end. -/
  completed : ∀ j ∈ finishedIn v.past, j.result = some ()
  /-- The count of a stream is the number of its items that were taken, and what the passes record
  on the same series by themselves. -/
  counted : ∀ s,
    Metrics.value (measured (v.jobs.flatMap Job.acts)) (c.metrics.eventSeries s) =
      (onStream s (takenIn v.past)).length +
        Metrics.value (measured (v.jobs.flatMap fun j => j.acts.tail)) (c.metrics.eventSeries s)
  /-- Which is nothing if no resource records on it. -/
  counted_alone : ∀ s, ¬ c.Records (c.metrics.eventSeries s) →
    Metrics.value (measured (v.jobs.flatMap Job.acts)) (c.metrics.eventSeries s) =
      (onStream s (takenIn v.past)).length
  /-- Once it has begun to work it works on, whatever its passes come to, until it is cancelled. -/
  goesOn : ∀ acts, .prepared acts (.ok ()) ∈ v.past → v.cancelled = false → v.Serves
  /-- If something waits then the controller takes an item and comes back from it, whatever the pass
  comes to. -/
  takes : v.stage = .serving → v.cancelled = false → ∀ s, v.waiting s ≠ [] →
    ∃ item rest, v.waiting item.stream = item :: rest ∧
      ∀ acts x, Runs (c.serve item) acts (some x) →
        ∃ v', Relation.ReflTransGen (Step c) v v' ∧ v'.stage = .serving ∧
          v'.past = v.past ++ [.took item, .handled ⟨item, acts, some ()⟩]
  /-- Before anything else the definition is brought into service. As long as that goes on there is
  no informer, and nothing is handled. -/
  readies : ∀ p, v.stage = .preparing p →
    c.Readies v.preparation none ∧ v.feed = none ∧ v.jobs = []
  /-- What has come of it is what bringing it into service comes to. -/
  readied : ∀ acts r, .prepared acts r ∈ v.past → c.Readies acts (some r)
  /-- Unless that has succeeded no informer is started. -/
  begins : ∀ f, v.feed = some f → ∃ acts, .prepared acts (.ok ()) ∈ v.past
  /-- The preparation decides whether the controller goes to work or ends. -/
  prepares : ∀ p, v.stage = .preparing p → ∀ acts x, Runs p acts (some x) →
    ∃ v', Relation.ReflTransGen (Step c) v v' ∧ v'.stage = .afterPreparing x
  /-- If it failed then its error is what booting comes to. No informer was started, so nothing was
  listed or watched, and nothing was handled. -/
  refused : ∀ acts e, .prepared acts (.error e) ∈ v.past →
    v.stage = .ended (.error e) ∧ c.Readies acts (some (.error e)) ∧ v.feed = none ∧
      v.jobs = [] ∧ ∀ x ∈ v.past, x = .cancelled ∨ x = .prepared acts (.error e)
  /-- Booting comes to no other error. -/
  failed : ∀ e, v.stage = .ended (.error e) → ∃ acts, c.Readies acts (some (.error e))

theorem Stands.serves (h : Stands c v) {acts : List (Act definitions)}
    (hmem : .prepared acts (.ok ()) ∈ v.past) (hcancelled : v.cancelled = false) : v.Serves := by
  cases h with
  | preparing _ _ hpast => cases hpast _ hmem
  | refused _ _ _ hpast =>
    rcases hpast _ hmem with heq | heq
    · cases heq
    · cases heq
  | started _ _ _ _ hstage => exact hstage.resolve_right (by simp [hcancelled])

/-- Until the preparation is over it has gone as far as bringing the definition into service has. -/
theorem Stands.readies (h : Stands c v) {p : Program definitions (Except Error Unit)}
    (hstage : v.stage = .preparing p) :
    c.Readies v.preparation none ∧ v.feed = none ∧ v.jobs = [] := by
  obtain ⟨hfeed, hpast, hruns⟩ := h.of_preparing hstage
  have hsofar := hruns [] none (.cut p)
  rw [List.append_nil] at hsofar
  have hnotices : ∀ x ∈ v.past, x.IsNotice := fun x hx => hpast x hx ▸ .cancelled
  have hjobs : v.jobs = [] := by simp [jobs, finishedIn_notices hnotices, work?, hstage]
  exact ⟨Controller.runs_prepare_iff.1 hsofar, hfeed, hjobs⟩

/-- What has come of the preparation. -/
theorem Stands.readied (h : Stands c v) {acts : List (Act definitions)} {r : Except Error Unit}
    (hmem : .prepared acts r ∈ v.past) : c.Readies acts (some r) := by
  refine Controller.runs_prepare_iff.1 ?_
  cases h with
  | preparing _ _ hpast => cases hpast _ hmem
  | refused _ _ hruns hpast =>
    rcases hpast _ hmem with heq | heq
    · cases heq
    · cases heq
      exact hruns
  | started _ _ _ hready => exact (hready.only _ _ hmem).2

theorem Stands.of_prepared_error (h : Stands c v) {acts : List (Act definitions)} {e : Error}
    (hmem : .prepared acts (.error e) ∈ v.past) :
    v.stage = .ended (.error e) ∧ c.Readies acts (some (.error e)) ∧ v.feed = none ∧
      v.jobs = [] ∧ ∀ x ∈ v.past, x = .cancelled ∨ x = .prepared acts (.error e) := by
  cases h with
  | preparing _ _ hpast => cases hpast _ hmem
  | refused hstage hfeed hruns hpast =>
    rcases hpast _ hmem with heq | heq
    · cases heq
    · cases heq
      have hnotices : ∀ x ∈ v.past, x.IsNotice := by
        intro x hx
        rcases hpast x hx with rfl | rfl
        · exact .cancelled
        · exact .prepared _ _
      have hjobs : v.jobs = [] := by
        simp [jobs, finishedIn_notices hnotices, work?, hstage]
      exact ⟨hstage, Controller.runs_prepare_iff.1 hruns, hfeed, hjobs, hpast⟩
  | started _ _ _ hready => cases (hready.only _ _ hmem).1

theorem Stands.readies_of_ended (h : Stands c v) {e : Error}
    (hstage : v.stage = .ended (.error e)) : ∃ acts, c.Readies acts (some (.error e)) := by
  cases h with
  | preparing hstage' => simp [hstage] at hstage'
  | refused hstage' _ hruns =>
    rw [hstage] at hstage'
    cases hstage'
    exact ⟨_, Controller.runs_prepare_iff.1 hruns⟩
  | started _ _ _ _ hstage' => simp [Serves, hstage] at hstage'

/-- An item that waits can be taken and handled. -/
theorem Reachable.exists_run (hv : Reachable c v) (hstage : v.stage = .serving)
    (hcancelled : v.cancelled = false) {s : Stream} (hs : v.waiting s ≠ []) :
    ∃ item rest, v.waiting item.stream = item :: rest ∧
      ∀ acts x, Runs (c.serve item) acts (some x) →
        ∃ v', Relation.ReflTransGen (Step c) v v' ∧ v'.stage = .serving ∧
          v'.past = v.past ++ [.took item, .handled ⟨item, acts, some ()⟩] := by
  obtain ⟨f, hfeed⟩ := hv.stands.exists_feed (.inl hstage)
  have hwaiting (s : Stream) : v.waiting s = f.outlets.waiting s := by simp [waiting, hfeed]
  rcases htake : f.outlets.take? with _ | ⟨item, outlets⟩
  · exact absurd ((hwaiting s).trans (Outlets.waiting_of_take?_eq_none htake s)) hs
  · have hnext := Outlets.next_of_take? htake
    refine ⟨item, outlets.waiting item.stream, ?_, fun acts x hruns => ?_⟩
    · rw [hwaiting, hnext.waiting]
      simp [onStream]
    · exact ⟨_, run_of_serves hstage hcancelled hfeed htake hruns, rfl, rfl⟩

/-- Whatever happens, every item that the informer sends is handled once, in order, or still
waits. -/
theorem Reachable.handlesEach (hv : Reachable c v) : HandlesEach c v where
  informed f hfeed := by
    obtain ⟨hloop, hknown, -⟩ := hv.stands.of_feed hfeed
    exact ⟨hloop, hknown⟩
  received s := hv.taken_eq ▸ hv.received s
  prompt := hv.prompt
  taken := hv.taken_eq
  faithful := hv.faithful
  completed j hj := (hv.works.1 j hj).2
  counted s := by
    rw [hv.taken_eq]
    exact value_of_forall_faithful hv.faithful s
  counted_alone s hresources := by
    rw [hv.taken_eq, value_of_forall_faithful hv.faithful s,
      value_later_eq_zero hv.faithful hresources, Nat.add_zero]
  goesOn acts hmem hcancelled := hv.stands.serves hmem hcancelled
  takes hstage hcancelled s hs := hv.exists_run hstage hcancelled hs
  readies p hstage := hv.stands.readies hstage
  readied acts r hmem := hv.stands.readied hmem
  begins f hfeed := by
    obtain ⟨-, -, hready, -⟩ := hv.stands.of_feed hfeed
    exact hready.ended
  prepares p hstage acts x hruns := exists_run_of_prepares hstage hruns
  refused acts e hmem := hv.stands.of_prepared_error hmem
  failed e hstage := hv.stands.readies_of_ended hstage

/-! ### A controller whose passes fail -/

/-- A list of an object that lives and of one that is being deleted. -/
def bothListed : ObjectList Unit :=
  ⟨[Informer.sample "a" "1" false, Informer.sample "b" "2" true], "2"⟩

/-- A server without objects, and a resource that never succeeds. -/
def failing : (q : (controllerInterface Boot.callOut Unit).Request) → Stored Unit →
    (controllerInterface Boot.callOut Unit).Reply q × Stored Unit :=
  surroundings fun _ => .error (.internal "r" "no")

/-- A server that takes the definition of the kind and serves it. -/
def accepting : (q : definitions.Request) → Unit → definitions.Reply q × Unit
  | .create _, u => ((.ok () : Except Error Unit), u)
  | .get _, u =>
    ((.ok (some ⟨some [⟨"Established", "True"⟩]⟩) : Except Error (Option DefinitionStatus)), u)
  | .delete _, u => ((.ok () : Except Error Unit), u)

/-- A controller that brings the definition of its kind into service itself. -/
def declarer : Controller Boot.callOut Unit Unit Unit :=
  { Boot.caller with schema := some Definition.demo }

/-- What happens when it does. -/
def declared : List (Act definitions) :=
  (Definition.demo.ensureEstablished.perform accepting default ()).1.map Prod.fst

/-- The definition is created and seen to be in service. Then both objects of a list wait before the
controller takes one. The deletion comes first, its pass fails, the update comes next, its pass
fails too, and then the controller waits for another item. -/
theorem handlesEach_bothListed : ∃ v : Service Boot.callOut Unit, Reachable declarer v ∧
    HandlesEach declarer v ∧ v.stage = .serving ∧
    .prepared declared (.ok ()) ∈ v.past ∧ declarer.Readies declared (some (.ok ())) ∧
    Program.dialogue declared = [⟨.create "demos.demo", (.ok () : Except Error Unit)⟩,
      Definition.demo.look (.ok (some ⟨some [⟨"Established", "True"⟩]⟩))] ∧
    sentIn v.past = [.change (Informer.sample "a" "1" false),
      .deletion (Informer.sample "b" "2" true)] ∧
    ∃ deleting updating e e', finishedIn v.past =
        [⟨.deletion (Informer.sample "b" "2" true), deleting, some ()⟩,
          ⟨.change (Informer.sample "a" "1" false), updating, some ()⟩] ∧
      Runs (declarer.serve (.deletion (Informer.sample "b" "2" true))) deleting
        (some (.error e)) ∧
      Runs (declarer.serve (.change (Informer.sample "a" "1" false))) updating
        (some (.error e')) := by
  have hprepares : Runs declarer.prepare declared (some (.ok ())) :=
    Program.runs_perform accepting default Definition.demo.ensureEstablished ()
  have hserving : Reachable declarer _ := run_of_prepares_ok rfl hprepares (.ofMillis 0)
  have hstarted := hserving.tail (.inform rfl (Feed.step_carry rfl rfl rfl))
  have hcalled := hstarted.tail (.inform rfl (Feed.step_carry rfl rfl rfl))
  have hlisted := hcalled.tail (.inform rfl (Feed.step_take rfl (.ofMillis 1)
    (i := .listed (.ok bothListed)) (by simp) rfl (by decide) (.inl ⟨_, rfl⟩)))
  have hlogged := hlisted.tail (.inform rfl (Feed.step_carry rfl rfl rfl))
  have hupdate := hlogged.tail (.inform rfl (Feed.step_carry rfl rfl rfl))
  have hdelete := hupdate.tail (.inform rfl (Feed.step_carry rfl rfl rfl))
  obtain ⟨deleting, e, hdeleting⟩ : ∃ as e,
      Runs (declarer.serve (.deletion (Informer.sample "b" "2" true))) as (some (.error e)) :=
    ⟨_, _, Program.runs_perform failing default _ fun _ => none⟩
  obtain ⟨updating, e', hupdating⟩ : ∃ as e,
      Runs (declarer.serve (.change (Informer.sample "a" "1" false))) as (some (.error e)) :=
    ⟨_, _, Program.runs_perform failing default _ fun _ => none⟩
  have hdeleted := hdelete.trans (run_of_serves rfl rfl rfl rfl hdeleting)
  have hupdated := hdeleted.trans (run_of_serves rfl rfl rfl rfl hupdating)
  have heach := Reachable.handlesEach hupdated
  exact ⟨_, hupdated, heach, rfl, List.mem_cons_self .., Controller.runs_prepare_iff.1 hprepares,
    rfl, rfl, deleting, updating, e, e', rfl, hdeleting, hupdating⟩

end Service

end Reconciler
