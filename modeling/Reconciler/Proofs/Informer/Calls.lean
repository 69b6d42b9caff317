import Reconciler.Proofs.Informer.Resync
import Reconciler.Proofs.Informer.Routing

/-!
# The calls of an informer

An informer makes two calls, to list and to open a watch, and which one comes next is a matter of
its phase alone. `Phase.Next` is the diagram of the phases with the calls on its arrows; everything
here goes along it.

A watch goes on from the last version that an event reported since the last list of the informer's
own, or from the version of that list. What became of the event does not matter, and what happens
between two watches does not count: lists of resyncs, errors, and watches that close or cannot be
opened.

A list is owed from the start on, and again from the moment that the version expires, until one
succeeds. While it is owed the informer does nothing but try. Apart from that it lists once for each
resync.

## Main definitions

* `Phase.Next` : the arrows between the phases, with the calls that are made
* `ResumesAt` : the version that a watch is to go on from
* `owed`, `ListDue` : the list that is still to be made, and when one is to be called for
* `Fits` : the invariant of a history with the phase and the calls that are still to be made
* `Loop.Justified` : every call that was made had its reason, and every reason has its call

## Main results

* `State.next_step` : a step goes along the diagram
* `Loop.Reachable.invariant_of_next` : what the start has and every arrow keeps always holds
* `Fits.next` : an arrow keeps the invariant
* `Loop.calls_justified` : the calls of every run are justified
-/

namespace Reconciler

namespace Informer

variable {β : Type}

/-! ### Calls -/

/-- A call to the server. -/
inductive Call where
  /-- For the objects that there are. -/
  | list
  /-- For the changes after a version. -/
  | watch (version : String)
deriving DecidableEq

/-- The call that an output makes. -/
def Output.call? : Output β → Option Call
  | .list => some .list
  | .watch version => some (.watch version)
  | _ => none

/-- The calls that outputs make, in order. -/
def calls (outs : List (Output β)) : List Call := outs.filterMap Output.call?

@[simp] theorem calls_nil : calls ([] : List (Output β)) = [] := rfl

@[simp] theorem calls_log (e : LogEvent) (outs : List (Output β)) :
    calls (.log e :: outs) = calls outs := rfl

@[simp] theorem calls_list (outs : List (Output β)) : calls (.list :: outs) = .list :: calls outs :=
  rfl

@[simp] theorem calls_watch (version : String) (outs : List (Output β)) :
    calls (.watch version :: outs) = .watch version :: calls outs := rfl

@[simp] theorem calls_send (route : Route) (o : Object β) (outs : List (Output β)) :
    calls (.send route o :: outs) = calls outs := rfl

@[simp] theorem calls_report (e : Error) (outs : List (Output β)) :
    calls (.report e :: outs) = calls outs := rfl

@[simp] theorem calls_append (outs outs' : List (Output β)) :
    calls (outs ++ outs') = calls outs ++ calls outs' :=
  List.filterMap_append

theorem mem_calls_of_list {outs : List (Output β)} (h : .list ∈ outs) : .list ∈ calls outs :=
  List.mem_filterMap.2 ⟨.list, h, rfl⟩

theorem mem_calls_of_watch {outs : List (Output β)} {version : String}
    (h : .watch version ∈ outs) : .watch version ∈ calls outs :=
  List.mem_filterMap.2 ⟨.watch version, h, rfl⟩

/-! ### The diagram of the phases -/

/-- The arrows between the phases: an input takes one phase to another, and calls are made on the
way. -/
inductive Phase.Next : Phase → Input β → Phase → List Call → Prop where
  /-- A list that seeds or repairs succeeds, and a watch is opened from its version. -/
  | listed (mode : ListMode) (l : ObjectList β) :
      Next (.listing mode) (.listed (.ok l)) (.opening l.version) [.watch l.version]
  /-- It fails. -/
  | notListed (mode : ListMode) (e : Error) :
      Next (.listing mode) (.listed (.error e)) (.failing (.list mode)) []
  /-- The list of a resync is answered, either way. -/
  | resynced (rest : Rest) (r : Except Error (ObjectList β)) :
      Next (.resyncing rest) (.listed r) (.resting rest) []
  /-- A watch is open. -/
  | opened (version : String) :
      Next (.opening version) (.opened (.ok ())) (.resting (.watching version)) []
  /-- It cannot be opened. -/
  | notOpened (version : String) {e : Error} (he : e.isGone = false) :
      Next (.opening version) (.opened (.error e)) (.failing (.watch version)) []
  /-- It cannot be opened because the version expired. -/
  | expiredBefore (version : String) {e : Error} (he : e.isGone = true) :
      Next (.opening version) (.opened (.error e)) (.listing .relist) [.list]
  /-- The watch reports a change. -/
  | event (version : String) (e : WatchEvent β) :
      Next (.resting (.watching version)) (.event e)
        (.resting (.watching (State.versionAfter e version))) []
  /-- The watch reports an error. -/
  | failed (version : String) {e : Error} (he : e.isGone = false) :
      Next (.resting (.watching version)) (.failed e) (.resting (.watching version)) []
  /-- The watch reports that the version expired. -/
  | expired (version : String) {e : Error} (he : e.isGone = true) :
      Next (.resting (.watching version)) (.failed e) (.listing .relist) [.list]
  /-- The watch ends. -/
  | closed (version : String) :
      Next (.resting (.watching version)) .closed (.opening version) [.watch version]
  /-- A failure is reported, and a pause begins. -/
  | settled (resume : Resume) (until_ : Duration) :
      Next (.failing resume) .settled (.resting (.pausing until_ resume)) []
  /-- After the pause the list is tried again. -/
  | listAgain (until_ : Duration) (mode : ListMode) :
      Next (.resting (.pausing until_ (.list mode))) .pauseOver (.listing mode) [.list]
  /-- After the pause the watch is tried again. -/
  | watchAgain (until_ : Duration) (version : String) :
      Next (.resting (.pausing until_ (.watch version))) .pauseOver (.opening version)
        [.watch version]
  /-- It is time for a resync. -/
  | resyncDue {rest : Rest} (hrest : rest.resyncs = true) :
      Next (.resting rest) .resyncDue (.resyncing rest) [.list]
  /-- It is time to hand out the next object of a resync. -/
  | pacedDue {rest : Rest} (hrest : rest.resyncs = true) :
      Next (.resting rest) .pacedDue (.resting rest) []
  /-- The informer is cancelled. -/
  | cancelled (phase : Phase) : Next phase .cancelled .stopped []

namespace State

theorem calls_observeAll (mode : ListMode) (c : Cache) (items : List (Object β)) :
    calls (observeAll mode c items).2 = [] := by
  induction items generalizing c with
  | nil => rfl
  | cons o os ih =>
    have hfirst : calls (observeListed mode c o).2 = [] := by
      cases hknows : c.knows o <;> cases mode <;> simp [observeListed, Cache.observe, hknows]
    rw [observeAll, calls_append, hfirst, ih, List.append_nil]

theorem calls_forget (c : Cache) (items : List (Object β)) : calls (forget c items).2 = [] := by
  simp only [forget]
  split <;> rfl

/-- An event changes the cache alone, and calls for nothing. -/
theorem calls_handleEvent (s : State β) (e : WatchEvent β) : calls (s.handleEvent e).2 = [] := by
  have hchange (o : Object β) : calls (s.handleChange o).2 = [] := by
    rw [handleChange]
    split <;> rfl
  cases e with
  | added o => exact hchange o
  | modified o => exact hchange o
  | deleted o =>
    simp only [handleEvent]
    split <;> rfl
  | bookmark version => rfl

theorem phase_emitPaced (s : State β) (now : Duration) :
    (s.emitPaced now).1.phase = s.phase ∧ calls (s.emitPaced now).2 = [] := by
  rw [emitPaced]
  split
  · exact ⟨rfl, rfl⟩
  · split <;> exact ⟨rfl, rfl⟩

theorem next_stepListed (s : State β) (t : Instant) (mode : ListMode)
    (r : Except Error (ObjectList β)) :
    Phase.Next (.listing mode) (.listed r) (s.stepListed t mode r).1.phase
      (calls (s.stepListed t mode r).2) := by
  cases r with
  | error e => exact .notListed mode e
  | ok l =>
    have hcalls : calls (s.stepListed t mode (.ok l)).2 = [.watch l.version] := by
      simp [stepListed, applyList, reopen, calls_observeAll, calls_forget]
    rw [hcalls]
    exact .listed mode l

theorem next_stepResynced (s : State β) (t : Instant) (rest : Rest)
    (r : Except Error (ObjectList β)) :
    Phase.Next (.resyncing rest) (.listed r) (s.stepResynced t rest r).1.phase
      (calls (s.stepResynced t rest r).2) := by
  cases r with
  | error e => exact .resynced rest _
  | ok l =>
    have hcalls : calls (s.stepResynced t rest (.ok l)).2 = [] := by
      simp only [stepResynced, applyResync, calls_append, calls_forget, List.append_nil]
      split <;> rfl
    rw [hcalls]
    exact .resynced rest _

theorem next_stepOpened (s : State β) (version : String) (r : Except Error Unit) :
    Phase.Next (.opening version) (.opened r : Input β) (s.stepOpened version r).1.phase
      (calls (s.stepOpened version r).2) := by
  cases r with
  | ok u => exact .opened version
  | error e =>
    simp only [stepOpened]
    cases he : e.isGone with
    | true => exact .expiredBefore version he
    | false => exact .notOpened version he

theorem next_stepWatch (s : State β) (t : Instant) (version : String) {i : Input β}
    (hi : (∃ e, i = .event e) ∨ (∃ e, i = .failed e) ∨ i = .closed)
    (hphase : s.phase = .resting (.watching version)) :
    Phase.Next (.resting (.watching version)) i (s.stepWatch t version i).1.phase
      (calls (s.stepWatch t version i).2) := by
  rcases hi with ⟨e, rfl⟩ | ⟨e, rfl⟩ | rfl
  · simp only [stepWatch, calls_handleEvent]
    exact .event version e
  · simp only [stepWatch]
    cases he : e.isGone with
    | true => exact .expired version he
    | false =>
      simp only [Bool.false_eq_true, if_false, hphase]
      exact .failed version he
  · exact .closed version

theorem next_stepTimer {s : State β} {t : Instant} {rest : Rest} {due : Duration} {i : Input β}
    (hphase : s.phase = .resting rest)
    (hi : (i = .resyncDue ∨ i = .pacedDue) ∧ rest.resyncs = true ∨
      i = .pauseOver ∧ ∃ resume, rest = .pausing due resume) :
    Phase.Next (.resting rest) i (s.stepTimer t rest i).1.phase
      (calls (s.stepTimer t rest i).2) := by
  rcases hi with ⟨rfl | rfl, hrest⟩ | ⟨rfl, resume, rfl⟩
  · obtain ⟨at_, hat⟩ : ∃ at_, nextResync s.config.resync s.resyncAt t.time = at_ := ⟨_, rfl⟩
    rw [stepTimer_resyncDue hat]
    exact .resyncDue hrest
  · obtain ⟨hsame, hcalls⟩ := s.phase_emitPaced t.time
    rw [show s.stepTimer t rest .pacedDue = s.emitPaced t.time from rfl, hsame, hcalls, hphase]
    exact .pacedDue hrest
  · cases resume with
    | list mode => exact .listAgain due mode
    | watch version => exact .watchAgain due version

/-- A step goes along the diagram. -/
theorem next_step {s : State β} {t : Instant} {i : Input β}
    (hi : s.Awaits t.time i ∨ i = .cancelled) :
    s.phase.Next i (s.step t i).1.phase (calls (s.step t i).2) := by
  cases i with
  | cancelled =>
    have hcalls : calls (s.step t .cancelled).2 = [] := by
      simp only [step]
      split <;> rfl
    rw [s.phase_step_cancelled, hcalls]
    exact .cancelled s.phase
  | listed r =>
    obtain ⟨mode, hphase⟩ | ⟨rest, hphase⟩ := hi.resolve_right (by simp)
    · simpa only [step, hphase] using s.next_stepListed t mode r
    · simpa only [step, hphase] using s.next_stepResynced t rest r
  | opened r =>
    obtain ⟨version, hphase⟩ := hi.resolve_right (by simp)
    simpa only [step, hphase] using s.next_stepOpened version r
  | settled =>
    obtain ⟨resume, hphase⟩ := hi.resolve_right (by simp)
    simp only [step, hphase]
    exact .settled resume _
  | event | failed | closed =>
    obtain ⟨version, hphase⟩ := hi.resolve_right (by simp)
    simpa only [step, hphase] using s.next_stepWatch t version (by simp) hphase
  | resyncDue | pacedDue | pauseOver =>
    -- a timer goes off, whether a watch is open or a pause lasts
    obtain ⟨due, hdue, -⟩ := hi.resolve_right (by simp)
    obtain ⟨rest, hphase, hkind⟩ := exists_rest_of_mem_timers hdue
    have hnext := next_stepTimer (t := t) hphase hkind
    cases rest <;> simpa only [step, hphase, stepWatch] using hnext

end State

namespace Loop

variable {config : Config} {l : Loop β}

/-- What the start has, and every arrow of the diagram keeps, always holds of the history, the phase
and the calls that are still to be made. -/
theorem Reachable.invariant_of_next {P : List (Occurrence β) → Phase → List Call → Prop}
    (hstart : P [] (.listing .seed) [.list])
    (hcarry : ∀ {past phase out cs}, P past phase (calls [out] ++ cs) →
      P (past ++ [.carried out]) phase cs)
    (hnext : ∀ {past phase cs t i phase' cs'}, phase.Next i phase' cs' → P past phase cs →
      P (past ++ [.took t phase i]) phase' cs')
    (hl : Reachable config l) : P l.past l.machine.phase (calls l.pending) := by
  refine hl.invariant (P := fun l => P l.past l.machine.phase (calls l.pending)) ?_ ?_
  · intro now
    exact hstart
  · intro l l' hstep h
    cases hstep with
    | @carry out rest hp =>
      refine hcarry ?_
      rwa [hp, ← List.singleton_append, calls_append] at h
    | take t i hp ht hi => exact hnext (State.next_step (.inl hi)) h
    | cancel t ht hs => exact hnext (State.next_step (.inr rfl)) h

end Loop

/-! ### Where a watch goes on -/

/-- The version that an event reports. -/
def Occurrence.reported? : Occurrence β → Option String
  | .took _ _ (.event (.added o)) => o.metadata.resourceVersion
  | .took _ _ (.event (.modified o)) => o.metadata.resourceVersion
  | .took _ _ (.event (.deleted o)) => o.metadata.resourceVersion
  | .took _ _ (.event (.bookmark version)) => some version
  | _ => none

/-- The version of a list that seeds or repairs. The list of a resync is none. -/
def Occurrence.listed? : Occurrence β → Option String
  | .took _ (.listing _) (.listed (.ok l)) => some l.version
  | _ => none

/-- A watch is to go on from the version that the last event reported since the last list that
seeds or repairs, and if none did from the version of that list. -/
def ResumesAt (past : List (Occurrence β)) (version : String) : Prop :=
  ∃ before x since base, past = before ++ x :: since ∧ x.listed? = some base ∧
    (∀ y ∈ since, y.listed? = none) ∧
    version = (since.filterMap Occurrence.reported?).getLast?.getD base

theorem resumesAt_concat_listed (past : List (Occurrence β)) {x : Occurrence β} {base : String}
    (hx : x.listed? = some base) : ResumesAt (past ++ [x]) base :=
  ⟨past, x, [], base, rfl, hx, by simp, rfl⟩

theorem ResumesAt.concat {past : List (Occurrence β)} {version : String}
    (h : ResumesAt past version) {x : Occurrence β} (hx : x.listed? = none) :
    ResumesAt (past ++ [x]) (x.reported?.getD version) := by
  obtain ⟨before, y, since, base, rfl, hy, hsince, rfl⟩ := h
  refine ⟨before, y, since ++ [x], base, by simp, hy, ?_, ?_⟩
  · intro z hz
    rcases List.mem_append.1 hz with hz | hz
    · exact hsince z hz
    · rwa [List.mem_singleton.1 hz]
  · cases hreported : x.reported? <;> simp [hreported]

/-- The version that the watch is at, or will be opened from. -/
def Rest.version? : Rest → Option String
  | .watching version | .pausing _ (.watch version) => some version
  | .pausing _ (.list _) => none

/-- The version that the watch is at, or will be opened from. -/
def Phase.version? : Phase → Option String
  | .opening version | .failing (.watch version) => some version
  | .resting rest | .resyncing rest => rest.version?
  | _ => none

/-- What every arrow keeps: the version in the phase is where a watch goes on. -/
theorem Phase.Next.resumesAt {phase phase' : Phase} {i : Input β} {cs : List Call}
    (hnext : phase.Next i phase' cs) {past : List (Occurrence β)}
    (h : ∀ version, phase.version? = some version → ResumesAt past version) (t : Instant) :
    ∀ version, phase'.version? = some version →
      ResumesAt (past ++ [.took t phase i]) version := by
  intro version hversion
  cases hnext with
  | listed mode l =>
    cases hversion
    exact resumesAt_concat_listed past rfl
  | notListed => cases hversion
  | expiredBefore => cases hversion
  | expired => cases hversion
  | listAgain => cases hversion
  | cancelled => cases hversion
  | event version' e =>
    cases hversion
    cases e with
    | _ => exact (h version' rfl).concat rfl
  | settled resume until_ =>
    cases resume with
    | list mode => cases hversion
    | watch version' => exact (h version hversion).concat rfl
  | _ => exact (h version hversion).concat rfl

/-- A watch is opened from the version in the phase. -/
theorem Phase.Next.eq_opening {phase phase' : Phase} {i : Input β} {cs : List Call}
    (hnext : phase.Next i phase' cs) {version : String} (h : .watch version ∈ cs) :
    phase' = .opening version := by
  cases hnext <;> simp_all

/-- A watch that ends is opened again. -/
theorem Phase.Next.exists_watch {phase phase' : Phase} {cs : List Call}
    (hnext : phase.Next (.closed : Input β) phase' cs) : ∃ version, cs = [.watch version] := by
  cases hnext with
  | closed version => exact ⟨version, rfl⟩

/-! ### When a list is due -/

/-- What happened decides over the list that is owed: one that seeds or repairs settles the debt,
and an expired version makes a new one. -/
def Occurrence.owed (mode : Option ListMode) : Occurrence β → Option ListMode
  | .took _ (.listing _) (.listed (.ok _)) => none
  | .took _ _ (.opened (.error e)) => if e.isGone then some .relist else mode
  | .took _ _ (.failed e) => if e.isGone then some .relist else mode
  | _ => mode

/-- The list that is still to be made: the first one, or another because the version expired. -/
def owed (past : List (Occurrence β)) : Option ListMode :=
  past.foldl Occurrence.owed (some .seed)

theorem owed_concat (past : List (Occurrence β)) (x : Occurrence β) :
    owed (past ++ [x]) = x.owed (owed past) := by
  rw [owed, List.foldl_append]
  rfl

/-- The list that the machine waits for, or pauses to try again. -/
def Phase.lists? : Phase → Option ListMode
  | .listing mode | .failing (.list mode) | .resting (.pausing _ (.list mode)) => some mode
  | _ => none

theorem Phase.eq_of_lists? {phase : Phase} {mode : ListMode} (h : phase.lists? = some mode) :
    phase = .listing mode ∨ phase = .failing (.list mode) ∨
      ∃ until_, phase = .resting (.pausing until_ (.list mode)) := by
  unfold lists? at h
  split at h <;> cases h
  · exact .inl rfl
  · exact .inr (.inl rfl)
  · exact .inr (.inr ⟨_, rfl⟩)

theorem Rest.lists?_of_resyncs {rest : Rest} (h : rest.resyncs = true) :
    (Phase.resting rest).lists? = none := by
  match rest, h with
  | .watching _, _ => rfl
  | .pausing _ (.watch _), _ => rfl

/-- A phase pays a debt if it works on the list that is owed and on no other. A resync runs only
where it may go on. -/
def Phase.Pays (phase : Phase) (mode : Option ListMode) : Prop :=
  phase.lists? = mode ∧ ∀ rest, phase = .resyncing rest → rest.resyncs = true

/-- What every arrow keeps: the machine works on the list that it owes. -/
theorem Phase.Next.pays {phase phase' : Phase} {i : Input β} {cs : List Call}
    (hnext : phase.Next i phase' cs) (t : Instant) {mode : Option ListMode}
    (h : phase.Pays mode) (hphase' : phase' ≠ .stopped) :
    phase'.Pays (Occurrence.owed mode (.took t phase i)) := by
  obtain ⟨rfl, hresync⟩ := h
  cases hnext with
  | resynced rest r =>
    exact ⟨Rest.lists?_of_resyncs (hresync rest rfl), fun _ h => by cases h⟩
  | resyncDue hrest =>
    exact ⟨(Rest.lists?_of_resyncs hrest).symm, fun _ h => by cases h; exact hrest⟩
  | settled resume until_ => exact ⟨by cases resume <;> rfl, fun _ h => by cases h⟩
  | cancelled => exact absurd rfl hphase'
  | _ => exact ⟨by simp_all [Occurrence.owed, Phase.lists?], fun _ h => by cases h⟩

/-- A list is to be called for. -/
inductive ListDue (past : List (Occurrence β)) : Prop where
  /-- Nothing was taken yet, so this is the first one. -/
  | start (h : inputs past = [])
  /-- It is time for a resync. -/
  | resync (h : Handling past .resyncDue)
  /-- A watch could not be opened because the version expired. -/
  | expiredBefore {e : Error} (h : Handling past (.opened (.error e))) (he : e.isGone = true)
  /-- The watch reports that the version expired. -/
  | expired {e : Error} (h : Handling past (.failed e)) (he : e.isGone = true)
  /-- The pause after a failure is over, and a list is still owed. -/
  | again (h : Handling past .pauseOver) (howed : owed past ≠ none)

/-- The input that is being handled decides whether a list is due. -/
theorem listDue_iff_of_handling {past : List (Occurrence β)} {i : Input β}
    (hi : Handling past i) : ListDue past ↔
      i = .resyncDue ∨ (∃ e, (i = .opened (.error e) ∨ i = .failed e) ∧ e.isGone = true) ∨
        i = .pauseOver ∧ owed past ≠ none := by
  constructor
  · intro h
    cases h with
    | start h => exact absurd h hi.inputs_ne_nil
    | resync h => exact .inl (hi.unique h)
    | @expiredBefore e h he => exact .inr (.inl ⟨e, .inl (hi.unique h), he⟩)
    | @expired e h he => exact .inr (.inl ⟨e, .inr (hi.unique h), he⟩)
    | again h howed => exact .inr (.inr ⟨hi.unique h, howed⟩)
  · rintro (rfl | ⟨e, rfl | rfl, he⟩ | ⟨rfl, howed⟩)
    · exact .resync hi
    · exact .expiredBefore hi he
    · exact .expired hi he
    · exact .again hi howed

theorem ListDue.congr {past past' : List (Occurrence β)} (hinputs : inputs past = inputs past')
    (howed : owed past = owed past') (h : ListDue past) : ListDue past' := by
  cases h with
  | start h => exact .start (hinputs.symm.trans h)
  | resync h => exact .resync ((handling_congr hinputs).1 h)
  | expiredBefore h he => exact .expiredBefore ((handling_congr hinputs).1 h) he
  | expired h he => exact .expired ((handling_congr hinputs).1 h) he
  | again h hmode => exact .again ((handling_congr hinputs).1 h) (howed ▸ hmode)

/-- What is carried out changes nothing about what is due. -/
theorem listDue_append_carried {past : List (Occurrence β)} {out : Output β} :
    ListDue (past ++ [.carried out]) ↔ ListDue past := by
  have hinputs : inputs (past ++ [.carried out]) = inputs past := inputs_append_carried past out
  have howed : owed (past ++ [.carried out]) = owed past := owed_concat past _
  exact ⟨.congr hinputs howed, .congr hinputs.symm howed.symm⟩

/-- An arrow calls for a list exactly if one is due. -/
theorem Phase.Next.listDue {phase phase' : Phase} {i : Input β} {cs : List Call}
    (hnext : phase.Next i phase' cs) {past : List (Occurrence β)} (t : Instant)
    (hpays : phase ≠ .stopped → phase.Pays (owed past)) :
    (ListDue (past ++ [.took t phase i]) → cs = [.list]) ∧
      (¬ ListDue (past ++ [.took t phase i]) → .list ∉ cs) := by
  rw [listDue_iff_of_handling (handling_append_took.2 rfl), owed_concat]
  -- what comes after a pause depends on whether a list is owed, and so does what the phase works on
  cases hnext with
  | listAgain until_ mode =>
    have howed : owed past = some mode := (hpays (by simp)).1.symm
    simp [Occurrence.owed, howed]
  | watchAgain until_ version =>
    have howed : owed past = none := (hpays (by simp)).1.symm
    simp [Occurrence.owed, howed]
  | _ => simp_all

/-- What was carried out since the last input, after something that happened. -/
def Occurrence.lately (outs : List (Output β)) : Occurrence β → List (Output β)
  | .took .. => []
  | .carried out => outs ++ [out]

/-- What was carried out since the last input, in order. -/
def lately (past : List (Occurrence β)) : List (Output β) := past.foldl Occurrence.lately []

@[simp] theorem lately_append_took (past : List (Occurrence β)) (t : Instant) (phase : Phase)
    (i : Input β) : lately (past ++ [.took t phase i]) = [] := by
  rw [lately, List.foldl_append]
  rfl

@[simp] theorem lately_append_carried (past : List (Occurrence β)) (out : Output β) :
    lately (past ++ [.carried out]) = lately past ++ [out] := by
  rw [lately, List.foldl_append]
  rfl

/-! ### What always holds -/

/-- The history, the phase and the calls that are still to be made fit together. -/
structure Fits (past : List (Occurrence β)) (phase : Phase) (cs : List Call) : Prop where
  /-- The version in the phase is where a watch goes on. -/
  resumes : ∀ version, phase.version? = some version → ResumesAt past version
  /-- The watch that is still to be opened is the one that the machine waits for. -/
  opens : ∀ version, .watch version ∈ cs → phase = .opening version
  /-- A watch that ends is opened again, and nothing else is called for. -/
  reopens : Handling past .closed → ∃ version, calls (lately past) ++ cs = [.watch version]
  /-- The machine works on the list that it owes. -/
  pays : phase ≠ .stopped → phase.Pays (owed past)
  /-- If a list is due then it is the only call since the last input. -/
  due : ListDue past → calls (lately past) ++ cs = [.list]
  /-- If none is due then none is called for. -/
  notDue : ¬ ListDue past → .list ∉ calls (lately past) ++ cs

theorem fits_start : Fits ([] : List (Occurrence β)) (.listing .seed) [.list] where
  resumes := by rintro version ⟨⟩
  opens := by simp
  reopens h := absurd rfl h.inputs_ne_nil
  pays _ := ⟨rfl, fun rest h => by cases h⟩
  due _ := rfl
  notDue h := absurd (.start rfl) h

theorem Fits.carry {past : List (Occurrence β)} {phase : Phase} {out : Output β} {cs : List Call}
    (h : Fits past phase (calls [out] ++ cs)) : Fits (past ++ [.carried out]) phase cs where
  resumes version hversion := (h.resumes version hversion).concat rfl
  opens version hcall := h.opens version (List.mem_append_right _ hcall)
  reopens hclosed := by
    rw [lately_append_carried, calls_append, List.append_assoc]
    exact h.reopens (handling_append_carried.1 hclosed)
  pays hphase := by
    rw [owed_concat]
    exact h.pays hphase
  due hdue := by
    rw [lately_append_carried, calls_append, List.append_assoc]
    exact h.due (listDue_append_carried.1 hdue)
  notDue hdue := by
    rw [lately_append_carried, calls_append, List.append_assoc]
    exact h.notDue (mt listDue_append_carried.2 hdue)

theorem Fits.next {past : List (Occurrence β)} {phase phase' : Phase} {i : Input β}
    {cs cs' : List Call} (h : Fits past phase cs) (hnext : phase.Next i phase' cs') (t : Instant) :
    Fits (past ++ [.took t phase i]) phase' cs' where
  resumes := hnext.resumesAt h.resumes t
  opens version hcall := hnext.eq_opening hcall
  reopens hclosed := by
    cases handling_append_took.1 hclosed
    rw [lately_append_took]
    exact hnext.exists_watch
  pays hphase' := by
    rw [owed_concat]
    refine hnext.pays t (h.pays ?_) hphase'
    rintro rfl
    cases hnext
    exact hphase' rfl
  due hdue := by
    rw [lately_append_took]
    exact (hnext.listDue t h.pays).1 hdue
  notDue hdue := by
    rw [lately_append_took]
    exact (hnext.listDue t h.pays).2 hdue

namespace Loop

variable {config : Config} {l : Loop β}

theorem Reachable.fits (hl : Reachable config l) :
    Fits l.past l.machine.phase (calls l.pending) :=
  hl.invariant_of_next (P := Fits) fits_start Fits.carry fun hnext h => h.next hnext _

/-- A pause comes to its end. -/
theorem exists_run_pauseOver {until_ : Duration} {resume : Resume}
    (hphase : l.machine.phase = .resting (.pausing until_ resume)) :
    ∃ t, Run l (l.settle.take t .pauseOver) := by
  let t : Instant := ⟨l.now + until_, default⟩
  have hlater : l.now ≤ t.time ∧ until_ ≤ t.time := by
    simp only [t, Duration.le_iff, Duration.nanos_add]
    omega
  have hdue : l.machine.Awaits t.time .pauseOver :=
    ⟨until_, by simp [State.timers, hphase], hlater.2⟩
  exact ⟨t, l.run_settle.tail (.take t _ rfl hlater.1 hdue)⟩

/-- After a failure there is a pause. -/
theorem exists_run_pausing {resume : Resume} (hphase : l.machine.phase = .failing resume) :
    ∃ l', Run l l' ∧ ∃ until_, l'.machine.phase = .resting (.pausing until_ resume) := by
  let t : Instant := ⟨l.now, default⟩
  have hsettled : Step l.settle (l.settle.take t .settled) :=
    .take t _ rfl (Duration.le_iff.2 (Nat.le_refl _)) ⟨_, hphase⟩
  refine ⟨_, l.run_settle.tail hsettled, ?_⟩
  simp only [take_machine, settle_machine, State.step, hphase, State.pause]
  exact ⟨_, rfl⟩

/-- A list is tried again when the pause is over. -/
theorem exists_run_listing_of_pausing {until_ : Duration} {mode : ListMode}
    (hphase : l.machine.phase = .resting (.pausing until_ (.list mode))) :
    ∃ l', Run l l' ∧ l'.machine.phase = .listing mode := by
  obtain ⟨t, hrun⟩ := exists_run_pauseOver hphase
  refine ⟨_, hrun, ?_⟩
  simp only [take_machine, settle_machine, State.step, hphase, State.stepTimer]

/-- A list that is owed can always be tried again. -/
theorem exists_run_listing {mode : ListMode} (h : l.machine.phase.lists? = some mode) :
    ∃ l', Run l l' ∧ l'.machine.phase = .listing mode := by
  rcases Phase.eq_of_lists? h with hphase | hphase | ⟨until_, hphase⟩
  · exact ⟨l, .refl, hphase⟩
  · obtain ⟨l₁, hpauses, until_, hpausing⟩ := exists_run_pausing hphase
    obtain ⟨l', hrun, hlisting⟩ := exists_run_listing_of_pausing hpausing
    exact ⟨l', hpauses.trans hrun, hlisting⟩
  · exact exists_run_listing_of_pausing hphase

/-- Every call that was made had its reason, and every reason has its call. -/
structure Justified (l : Loop β) : Prop where
  /-- A watch was opened from where it was to go on, and while no list was owed. -/
  watches : ∀ before version after, l.past = before ++ .carried (.watch version) :: after →
    ResumesAt before version ∧ owed before = none
  /-- A list that was called for was due. -/
  lists : ∀ before after, l.past = before ++ .carried .list :: after → ListDue before
  /-- What makes a list due leads to one list, and to no other call. -/
  once : ListDue l.past → calls (lately l.past ++ l.pending) = [.list]
  /-- A watch that ends leads to no list. It is opened again. -/
  reopens : Handling l.past .closed →
    ∃ version, calls (lately l.past ++ l.pending) = [.watch version]
  /-- Nor does an error of a watch lead to a list, unless the version expired. -/
  unmoved : ∀ e, e.isGone = false →
    Handling l.past (.failed e) ∨ Handling l.past (.opened (.error e)) →
      .list ∉ calls (lately l.past ++ l.pending)
  /-- As long as a list is owed nothing is done but to try: to wait for the answer, to report that
  it failed, and to pause. -/
  insists : l.machine.phase ≠ .stopped → l.machine.phase.Pays (owed l.past)
  /-- And it can always be tried again. -/
  retries : ∀ mode, l.machine.phase ≠ .stopped → owed l.past = some mode →
    ∃ l', Run l l' ∧ l'.machine.phase = .listing mode

/-- Every watch is opened from the version of the last event since the last list that seeds or
repairs, or from the version of that list. Every list is the first one, or follows an expired
version, or is one of these tried again, or belongs to a resync, and each of these calls for one
list. A watch that ends is opened again, and no other error of a watch leads to a list. -/
theorem calls_justified (hl : Reachable config l) : l.Justified where
  watches before version after hpast := by
    obtain ⟨l₀, hl₀, rfl, hwanted⟩ := exists_carry hl hpast
    have hphase := hl₀.fits.opens version (mem_calls_of_watch hwanted)
    refine ⟨hl₀.fits.resumes version (by rw [hphase]; rfl), ?_⟩
    have hpays := hl₀.fits.pays (by rw [hphase]; simp)
    rw [hphase] at hpays
    exact hpays.1.symm
  lists before after hpast := by
    obtain ⟨l₀, hl₀, rfl, hwanted⟩ := exists_carry hl hpast
    refine Classical.byContradiction fun hdue => ?_
    exact hl₀.fits.notDue hdue (List.mem_append_right _ (mem_calls_of_list hwanted))
  once hdue := by
    rw [calls_append]
    exact hl.fits.due hdue
  reopens hclosed := by
    rw [calls_append]
    exact hl.fits.reopens hclosed
  unmoved e he h := by
    rw [calls_append]
    refine hl.fits.notDue ?_
    rcases h with h | h <;> rw [listDue_iff_of_handling h] <;> simp [he]
  insists := hl.fits.pays
  retries mode hphase howed := exists_run_listing ((hl.fits.pays hphase).1.trans howed)

/-- The watch ends after it reported a copy of `a` that the list held, and after a resync. -/
def reopened : List (Instant × Input Unit) :=
  [(.ofMillis 0, .listed (.ok ⟨[sample "a" "1" false], "5"⟩)),
    (.ofMillis 0, .opened (.ok ())),
    (.ofMillis 200, .event (.modified (sample "a" "1" false))),
    (.ofMillis 1000, .resyncDue),
    (.ofMillis 1000, .listed (.ok ⟨[sample "a" "1" false], "9"⟩)),
    (.ofMillis 1200, .closed)]

/-- The copy was not sent again, but the next watch goes on from its version. -/
theorem calls_justified_reopened :
    let l := (start { resync := .ofMillis 1000 } .zero).play reopened
    ∃ before, l.past = before ++ [.carried (.watch "1")] ∧ ResumesAt before "1" ∧
      l.sends = [(.update, sample "a" "1" false)] := by
  intro l
  have hl : Reachable { resync := .ofMillis 1000 } l := by
    refine (Reachable.start _ _).play ⟨?_, ?_, ?_, ?_, ?_, ?_, ?_, ?_, ?_, ?_, ?_, ?_, trivial⟩
    · decide
    · exact .inl ⟨.seed, rfl⟩
    · decide
    · exact ⟨"5", rfl⟩
    · decide
    · exact ⟨"5", rfl⟩
    · decide
    · exact ⟨.ofMillis 1000, .head _, by decide⟩
    · decide
    · exact .inr ⟨_, rfl⟩
    · decide
    · exact ⟨"1", rfl⟩
  have hpast : l.past = l.past.take 16 ++ [.carried (.watch "1")] := rfl
  exact ⟨_, hpast, ((calls_justified hl).watches _ _ _ hpast).1, rfl⟩

end Loop

end Informer

end Reconciler
