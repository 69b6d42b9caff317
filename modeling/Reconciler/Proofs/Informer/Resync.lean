import Reconciler.Proofs.Informer.Delivery

/-!
# What a resync reaches

A resync puts every listed object in the queue, and the next one replaces what is left of it. The
queue is handed out one object per `rateWait`, so an object far down a long list may never have its
turn, in this period or in any later one.

Whether it has is a matter of time alone if nothing holds the informer up: a timer goes off on the
whole millisecond at or after its due time, objects are taken from the streams at once, and the
watch stays open. Then an object is reached in every run exactly if it is the last of its key in the
list and the turns of all objects that may come before it end before the next resync is due. If they
do not, some run replaces the queue too early.

## Main definitions

* `Loop.Timely` : the steps of a run that nothing holds up, between two successful resyncs
* `Superseded` : the watch reported another version of an object, or its removal
* `Loop.Reaches` : an object of the queue is handed out in every such run, unless it is superseded
* `ahead` : how many objects of a queue can take a turn before another

## Main results

* `Loop.Waits.timely` : a step keeps an object on time, or hands it out
* `Loop.Idle.misses_of_late` : how a late object is missed
* `Loop.reaches_iff` : which objects a resync reaches
* `Loop.not_reaches_of_period_le` : an object with a whole period before it is never reached
-/

namespace Reconciler

namespace Duration

theorem le_iff {a b : Duration} : a ≤ b ↔ a.nanos ≤ b.nanos := Iff.rfl

@[simp] theorem nanos_add (a b : Duration) : (a + b).nanos = a.nanos + b.nanos := rfl

theorem nanos_ofMillis (m : Nat) : (ofMillis m).nanos = m * 1000000 := rfl

theorem nanos_ceilMillis (d : Duration) :
    d.ceilMillis.nanos = (d.nanos + 999999) / 1000000 * 1000000 := rfl

/-- Waiting for a span from a whole millisecond on ends on the whole millisecond after it. -/
theorem nanos_ceilMillis_add (a b : Duration) :
    (a.ceilMillis + b).ceilMillis.nanos = a.ceilMillis.nanos + b.ceilMillis.nanos := by
  simp only [nanos_ceilMillis, nanos_add]
  omega

theorem ceilMillis_le_ofMillis {d : Duration} {m : Nat} (h : d ≤ ofMillis m) :
    d.ceilMillis ≤ ofMillis m := by
  rw [le_iff, nanos_ofMillis] at h
  rw [le_iff, nanos_ceilMillis, nanos_ofMillis]
  omega

/-- Waiting for a span from some time before a whole millisecond on ends before a whole millisecond
that is a rounded span later. -/
theorem exists_add_le_ofMillis {d : Duration} {m : Nat} (h : d ≤ ofMillis m) (span : Duration) :
    ∃ m', d + span ≤ ofMillis m' ∧
      (ofMillis m').nanos = (ofMillis m).nanos + span.ceilMillis.nanos := by
  refine ⟨m + (span.nanos + 999999) / 1000000, ?_, ?_⟩
  · rw [le_iff, nanos_ofMillis] at h ⊢
    rw [nanos_add]
    omega
  · rw [nanos_ofMillis, nanos_ofMillis, nanos_ceilMillis, Nat.add_mul]

end Duration

namespace Informer

variable {β : Type}

/-! ### Steps while a watch is open -/

namespace State

/-- The machine reads a watch. -/
def Watches (s : State β) : Prop := ∃ version, s.phase = .resting (.watching version)

/-- The version last observed of the key of `o` is the version of `o`. -/
def Current (s : State β) (o : Object β) : Prop :=
  (s.cache.get? o.key).map (·.version) = some o.version

instance (s : State β) (o : Object β) : Decidable (s.Current o) :=
  inferInstanceAs (Decidable (_ = _))

/-- Two states agree on the queue and on what decides when it is handed out and replaced. -/
structure SameSchedule (s s' : State β) : Prop where
  config : s'.config = s.config
  resyncAt : s'.resyncAt = s.resyncAt
  paced : s'.paced = s.paced
  pacedAt : s'.pacedAt = s.pacedAt

/-- The timers that run while a watch is open. -/
theorem Watches.mem_timers {s : State β} (hs : s.Watches) {due : Duration} {i : Input β} :
    (due, i) ∈ s.timers ↔
      due = s.resyncAt ∧ i = .resyncDue ∨ s.paced ≠ [] ∧ due = s.pacedAt ∧ i = .pacedDue := by
  obtain ⟨version, hphase⟩ := hs
  cases hpaced : s.paced <;> simp [timers, hphase, hpaced, Rest.resyncs]

/-- What can happen while a watch is open. -/
theorem Watches.awaits {s : State β} (hs : s.Watches) {now : Duration} {i : Input β}
    (hi : s.Awaits now i) :
    i = .resyncDue ∧ s.resyncAt ≤ now ∨ i = .pacedDue ∧ s.paced ≠ [] ∧ s.pacedAt ≤ now ∨
      (∃ e, i = .event e) ∨ (∃ e, i = .failed e) ∨ i = .closed := by
  have hphase := hs
  obtain ⟨version, hphase⟩ := hphase
  cases i with
  | listed r => simp [Awaits, hphase] at hi
  | opened r => simp [Awaits, hphase] at hi
  | settled => simp [Awaits, hphase] at hi
  | event e => simp
  | failed e => simp
  | closed => simp
  | resyncDue | pacedDue | pauseOver | cancelled =>
    obtain ⟨due, hdue, hle⟩ := hi
    rcases hs.mem_timers.1 hdue with ⟨rfl, h⟩ | ⟨hne, rfl, h⟩ <;> cases h <;> simp [*]

theorem step_resyncDue {s : State β} {version : String}
    (hphase : s.phase = .resting (.watching version)) (t : Instant) :
    (s.step t .resyncDue).1.phase = .resyncing (.watching version) ∧
      (s.step t .resyncDue).1.resyncAt = nextResync s.config.resync s.resyncAt t.time ∧
      (s.step t .resyncDue).1.config = s.config ∧
      (s.step t .resyncDue).2 = [.log (.resyncing s.cache.size), .list] := by
  obtain ⟨due, hdue⟩ : ∃ due, nextResync s.config.resync s.resyncAt t.time = due := ⟨_, rfl⟩
  rw [show s.step t .resyncDue = s.stepTimer t (.watching version) .resyncDue by
    simp only [step, hphase, stepWatch], stepTimer_resyncDue hdue]
  exact ⟨rfl, hdue.symm, rfl, rfl⟩

/-- A resync is due at most one period after the one before was noticed. -/
theorem nextResync_le {period due now : Duration} (h : due ≤ now) :
    nextResync period due now ≤ now + period := by
  rw [nextResync]
  split
  · exact Nat.le_refl _
  · exact Nat.add_le_add_right h _

theorem step_pacedDue {s : State β} {rest : Rest} (hphase : s.phase = .resting rest)
    (t : Instant) : s.step t .pacedDue = s.emitPaced t.time := by
  cases rest <;> simp only [step, hphase, stepWatch, stepTimer]

theorem Watches.step_pacedDue {s : State β} (hs : s.Watches) (t : Instant) :
    s.step t .pacedDue = s.emitPaced t.time := by
  obtain ⟨version, hphase⟩ := hs
  exact State.step_pacedDue hphase t

theorem emitPaced_of_current {s : State β} {o : Object β} {rest : List (Object β)}
    (hpaced : s.paced = o :: rest) (ho : s.Current o) (now : Duration) :
    s.emitPaced now =
      ({ s with paced := rest, pacedAt := now + s.config.rateWait }, [.send o.route o]) := by
  obtain ⟨e, he, hversion⟩ := Option.map_eq_some_iff.1 ho
  simp [emitPaced, hpaced, he, hversion]

theorem emitPaced_of_not_current {s : State β} {o : Object β} {rest : List (Object β)}
    (hpaced : s.paced = o :: rest) (ho : ¬ s.Current o) (now : Duration) :
    s.emitPaced now = ({ s with paced := rest }, [.log (.resyncSuperseded o.key)]) := by
  simp only [emitPaced, hpaced]
  rw [if_neg]
  rw [Option.any_eq_true]
  rintro ⟨e, he, hversion⟩
  exact ho (by rw [Current, he, Option.map_some, eq_of_beq hversion])

/-- An event changes the cache alone. -/
theorem sameSchedule_handleEvent (s : State β) (e : WatchEvent β) :
    s.SameSchedule (s.handleEvent e).1 := by
  have hchange (o : Object β) : s.SameSchedule (s.handleChange o).1 := by
    rw [handleChange]
    split <;> exact ⟨rfl, rfl, rfl, rfl⟩
  cases e with
  | added o => exact hchange o
  | modified o => exact hchange o
  | deleted o => exact ⟨rfl, rfl, rfl, rfl⟩
  | bookmark v => exact ⟨rfl, rfl, rfl, rfl⟩

theorem Watches.step_event {s : State β} (hs : s.Watches) (t : Instant) (e : WatchEvent β) :
    (s.step t (.event e)).1.Watches ∧ s.SameSchedule (s.step t (.event e)).1 ∧
      (s.step t (.event e)).1.cache = (s.handleEvent e).1.cache ∧
      (s.step t (.event e)).2 = (s.handleEvent e).2 := by
  obtain ⟨version, hphase⟩ := hs
  have hstep : s.step t (.event e) =
      ({ (s.handleEvent e).1.calm t with
          phase := .resting (.watching (versionAfter e version)) }, (s.handleEvent e).2) := by
    simp only [step, hphase, stepWatch, handleEvent_calm]
  obtain ⟨hconfig, hresyncAt, hpaced, hpacedAt⟩ := s.sameSchedule_handleEvent e
  rw [hstep]
  exact ⟨⟨_, rfl⟩, ⟨hconfig, hresyncAt, hpaced, hpacedAt⟩, rfl, rfl⟩

theorem cache_handleChange (s : State β) (o : Object β) :
    (s.handleChange o).1.cache = (s.cache.observe o).2 := by
  rw [handleChange]
  split <;> simp_all

/-- A report of a change makes the reported object current. -/
theorem current_handleChange (s : State β) (o : Object β) : (s.handleChange o).1.Current o := by
  obtain ⟨e, he, hversion⟩ := s.cache.get?_observe_self o
  rw [Current, cache_handleChange, he, Option.map_some, hversion]

end State

/-- A report that an object has another version or was removed. -/
def Supersedes (e : WatchEvent β) (o : Object β) : Prop :=
  match e with
  | .added p | .modified p => p.key = o.key ∧ p.version ≠ o.version
  | .deleted p => p.key = o.key
  | .bookmark _ => False

theorem State.Current.handleEvent {s : State β} {o : Object β} (ho : s.Current o)
    {e : WatchEvent β} (he : ¬ Supersedes e o) : (s.handleEvent e).1.Current o := by
  have hchange (p : Object β) (hp : ¬ (p.key = o.key ∧ p.version ≠ o.version)) :
      (s.handleChange p).1.Current o := by
    by_cases hkey : p.key = o.key
    · have hversion : p.version = o.version := by simpa [hkey] using hp
      have hcurrent := s.current_handleChange p
      rwa [Current, hkey, hversion] at hcurrent
    · rw [Current, State.cache_handleChange, Cache.get?_observe_of_ne s.cache (Ne.symm hkey)]
      exact ho
  cases e with
  | added p => exact hchange p he
  | modified p => exact hchange p he
  | deleted p =>
    rw [Supersedes] at he
    simp only [State.handleEvent, Cache.remove, Current, Cache.get?_erase, if_neg (Ne.symm he)]
    exact ho
  | bookmark v => exact ho

/-! ### Runs that nothing holds up -/

/-- What can happen between two successful resyncs while the watch stays open. -/
def Input.Steady : Input β → Prop
  | .closed | .cancelled | .listed (.ok _) => False
  | .failed e => e.isGone = false
  | _ => True

/-- The watch reported another version of the object, or its removal. -/
def Superseded (past : List (Occurrence β)) (o : Object β) : Prop :=
  ∃ t phase e, .took t phase (.event e) ∈ past ∧ Supersedes e o

/-- How many objects of a queue can take a turn before `o`. Other versions of `o` cannot, since they
are not current when `o` is. -/
def ahead (o : Object β) (queue : List (Object β)) : Nat :=
  queue.countP fun p => p.key != o.key || p.version == o.version

namespace Loop

/-- One step of a run that nothing holds up, between two successful resyncs. Outputs take no time,
and time does not pass the whole millisecond on which a timer goes off. -/
inductive Timely : Loop β → Loop β → Prop where
  /-- The next output is carried out. -/
  | carry {l : Loop β} {out : Output β} {rest : List (Output β)} (hp : l.pending = out :: rest) :
      Timely l { l with pending := rest, past := l.past ++ [.carried out] }
  /-- Something happens that the machine waits for. -/
  | take {l : Loop β} (t : Instant) (i : Input β) (hp : l.pending = []) (ht : l.now ≤ t.time)
      (hi : l.machine.Awaits t.time i) (hsteady : i.Steady)
      (htimers : ∀ due j, (due, j) ∈ l.machine.timers → t.time ≤ l.now ∨ t.time ≤ due.ceilMillis) :
      Timely l (l.take t i)

theorem Timely.step {l l' : Loop β} (h : Timely l l') : Step l l' := by
  cases h with
  | carry hp => exact .carry hp
  | take t i hp ht hi => exact .take t i hp ht hi

/-- Any number of such steps. -/
def TimelyRun : Loop β → Loop β → Prop := Relation.ReflTransGen Timely

/-- In every run that nothing holds up, the object was handed out on its stream by the time that the
next list of a resync is answered, unless it was superseded. -/
def Reaches (l : Loop β) (o : Object β) : Prop :=
  ∀ l' new, TimelyRun l l' → l'.past = l.past ++ new → l'.pending = [] →
    (∃ rest, l'.machine.phase = .resyncing rest) → ¬ Superseded new o →
      .carried (.send o.route o) ∈ new

/-! ### An object that is on time -/

/-- An object waits in the queue and is on time: if every turn before its own, and the one that is
running now, ends as late as it can, its own turn still comes before the next resync. -/
structure Waits (l : Loop β) (o : Object β) : Prop where
  watches : l.machine.Watches
  current : l.machine.Current o
  queued : ∃ before after m, l.machine.paced = before ++ o :: after ∧ l.now ≤ .ofMillis m ∧
    l.machine.pacedAt ≤ .ofMillis m ∧
    (Duration.ofMillis m).nanos + ahead o before * l.machine.config.rateWait.ceilMillis.nanos <
      l.machine.resyncAt.nanos

/-- What only changes the cache, and within the time of the turn that is running, keeps an object on
time. -/
theorem Waits.of_sameSchedule {l l' : Loop β} {o : Object β} (h : Waits l o)
    (hsame : l.machine.SameSchedule l'.machine) (hwatches : l'.machine.Watches)
    (hcurrent : l'.machine.Current o)
    (hnow : ∀ m, l.now ≤ .ofMillis m → l.machine.pacedAt ≤ .ofMillis m → l'.now ≤ .ofMillis m) :
    Waits l' o := by
  obtain ⟨before, after, m, hpaced, hm, hpacedAt, hlt⟩ := h.queued
  refine ⟨hwatches, hcurrent, before, after, m, ?_, hnow m hm hpacedAt, ?_, ?_⟩
  · rw [hsame.paced, hpaced]
  · rw [hsame.pacedAt]
    exact hpacedAt
  · rw [hsame.config, hsame.resyncAt]
    exact hlt

/-- While an object waits, time does not pass the turn that is running. -/
theorem Waits.le_of_timers {l : Loop β} {o : Object β} (h : Waits l o) {now : Duration}
    (htimers : ∀ due j, (due, j) ∈ l.machine.timers → now ≤ l.now ∨ now ≤ due.ceilMillis)
    (m : Nat) (hm : l.now ≤ .ofMillis m) (hpacedAt : l.machine.pacedAt ≤ .ofMillis m) :
    now ≤ .ofMillis m := by
  have hmem : (l.machine.pacedAt, .pacedDue) ∈ l.machine.timers := by
    refine h.watches.mem_timers.2 (.inr ⟨?_, rfl, rfl⟩)
    obtain ⟨before, after, m, hpaced, -⟩ := h.queued
    simp [hpaced]
  rcases htimers _ _ hmem with hle | hle
  · exact Nat.le_trans hle hm
  · exact Nat.le_trans hle (Duration.ceilMillis_le_ofMillis hpacedAt)

theorem ahead_cons (o p : Object β) (queue : List (Object β)) :
    ahead o (p :: queue) =
      ahead o queue + if p.key != o.key || p.version == o.version then 1 else 0 := by
  rw [ahead, ahead, List.countP_cons]

/-- The turn of the first object in the queue. -/
theorem Waits.turn {l : Loop β} {o : Object β} (h : Waits l o) (t : Instant)
    (ht : ∀ m, l.now ≤ .ofMillis m → l.machine.pacedAt ≤ .ofMillis m → t.time ≤ .ofMillis m) :
    Waits (l.take t .pacedDue) o ∨ .send o.route o ∈ (l.take t .pacedDue).pending := by
  obtain ⟨before, after, m, hpaced, hm, hpacedAt, hlt⟩ := h.queued
  have hnow := ht m hm hpacedAt
  cases before with
  | nil =>
    right
    rw [take_pending, h.watches.step_pacedDue,
      State.emitPaced_of_current (by simpa using hpaced) h.current]
    exact List.mem_singleton.2 rfl
  | cons p before =>
    left
    rw [ahead_cons] at hlt
    by_cases hp : l.machine.Current p
    · have htakes : (p.key != o.key || p.version == o.version) = true := by
        by_cases hkey : p.key = o.key
        · have hversion := h.current
          rw [State.Current, ← hkey, hp, Option.some.injEq] at hversion
          simp [hversion]
        · simp [hkey]
      rw [htakes, if_pos rfl] at hlt
      have hmachine : (l.take t .pacedDue).machine = { l.machine with
          paced := before ++ o :: after
          pacedAt := t.time + l.machine.config.rateWait } := by
        rw [take_machine, h.watches.step_pacedDue,
          State.emitPaced_of_current (by simpa using hpaced) hp]
      have hcurrent := h.current
      obtain ⟨version, hphase⟩ := h.watches
      -- the next turn begins when this one ended, and lasts as long as the pause
      obtain ⟨m', hpause, hm'⟩ := Duration.exists_add_le_ofMillis hnow l.machine.config.rateWait
      refine ⟨⟨version, by rw [hmachine, hphase]⟩, by rw [hmachine]; exact hcurrent, before, after,
        m', by rw [hmachine], ?_, by rw [hmachine]; exact hpause, ?_⟩
      · refine Nat.le_trans hnow ?_
        rw [hm']
        exact Nat.le_add_right ..
      · rw [Nat.add_mul, Nat.one_mul] at hlt
        rw [hmachine, hm', Nat.add_assoc, Nat.add_comm (Duration.nanos _) (_ * _)]
        exact hlt
    · have hmachine : (l.take t .pacedDue).machine =
          { l.machine with paced := before ++ o :: after } := by
        rw [take_machine, h.watches.step_pacedDue,
          State.emitPaced_of_not_current (by simpa using hpaced) hp]
      have hcurrent := h.current
      obtain ⟨version, hphase⟩ := h.watches
      refine ⟨⟨version, by rw [hmachine, hphase]⟩, by rw [hmachine]; exact hcurrent, before, after,
        m, by rw [hmachine], hnow, by rw [hmachine]; exact hpacedAt, ?_⟩
      rw [hmachine]
      refine Nat.lt_of_le_of_lt (Nat.add_le_add_left (Nat.mul_le_mul_right _ ?_) _) hlt
      exact Nat.le_add_right ..

/-- A step keeps an object on time, or hands it out, unless it supersedes the object. -/
theorem Waits.timely {l : Loop β} {o : Object β} (h : Waits l o) {l' : Loop β}
    (hstep : Timely l l') {x : Occurrence β} (hx : l'.past = l.past ++ [x])
    (hnot : ¬ Superseded [x] o) : Waits l' o ∨ .send o.route o ∈ l'.pending := by
  cases hstep with
  | carry hp => exact .inl ⟨h.watches, h.current, h.queued⟩
  | take t i hp ht hi hsteady htimers =>
    have hnow := h.le_of_timers htimers
    rcases h.watches.awaits hi with ⟨rfl, hdue⟩ | ⟨rfl, -, -⟩ | ⟨e, rfl⟩ | ⟨e, rfl⟩ | rfl
    · -- the next resync is due after the turn that is running
      obtain ⟨before, after, m, -, hm, hpacedAt, hlt⟩ := h.queued
      have hle := hnow m hm hpacedAt
      rw [Duration.le_iff] at hdue hle
      omega
    · exact h.turn t hnow
    · obtain ⟨hwatches, hsame, hcache, -⟩ := h.watches.step_event t e
      have he : ¬ Supersedes e o := by
        intro he
        obtain rfl : .took t l.machine.phase (.event e) = x := by
          simpa [take] using hx
        exact hnot ⟨t, _, e, List.mem_singleton.2 rfl, he⟩
      have hcurrent := h.current.handleEvent he
      rw [State.Current, ← hcache] at hcurrent
      exact .inl (h.of_sameSchedule hsame hwatches hcurrent hnow)
    · obtain ⟨version, hphase⟩ := h.watches
      have hmachine : (l.take t (.failed e)).machine = l.machine := by
        have hgone : e.isGone = false := hsteady
        simp [State.step, hphase, State.stepWatch, hgone]
      refine .inl (h.of_sameSchedule ?_ ?_ ?_ hnow)
      · rw [hmachine]
        exact ⟨rfl, rfl, rfl, rfl⟩
      · rw [hmachine]
        exact h.watches
      · rw [hmachine]
        exact h.current
    · exact absurd hsteady id

/-- So in every run an object that is on time stays so until it is handed out. -/
theorem Waits.run {l l' : Loop β} {o : Object β} (h : Waits l o) (hrun : TimelyRun l l') :
    ∃ new, l'.past = l.past ++ new ∧ (¬ Superseded new o →
      Waits l' o ∨ .send o.route o ∈ l'.pending ∨ .carried (.send o.route o) ∈ new) := by
  induction hrun with
  | refl => exact ⟨[], by simp, fun _ => .inl h⟩
  | @tail l₁ l₂ _ hstep ih =>
    obtain ⟨new, hnew, ih⟩ := ih
    obtain ⟨x, hx⟩ := hstep.step.exists_past
    refine ⟨new ++ [x], by rw [hx, hnew, List.append_assoc], fun hnot => ?_⟩
    have hnot' : ¬ Superseded new o := by
      rintro ⟨t, phase, e, hmem, he⟩
      exact hnot ⟨t, phase, e, List.mem_append_left _ hmem, he⟩
    have hnotx : ¬ Superseded [x] o := by
      rintro ⟨t, phase, e, hmem, he⟩
      exact hnot ⟨t, phase, e, List.mem_append_right _ hmem, he⟩
    rcases ih hnot' with hwaits | hpending | hcarried
    · exact (hwaits.timely hstep hx hnotx).imp_right .inl
    · -- what is to be sent is sent before the machine takes the next input
      right
      cases hstep with
      | take t i hp => rw [hp] at hpending; cases hpending
      | carry hp =>
        rw [hp] at hpending
        rcases List.mem_cons.1 hpending with rfl | hrest
        · obtain rfl : .carried (.send o.route o) = x := by simpa using hx
          exact .inr (by simp)
        · exact .inl hrest
    · exact .inr (.inr (List.mem_append_left _ hcarried))

theorem Waits.reaches {l : Loop β} {o : Object β} (h : Waits l o) : Reaches l o := by
  intro l' new hrun hnew hpending hphase hnot
  obtain ⟨new', hnew', hrun⟩ := h.run hrun
  obtain rfl : new' = new := List.append_cancel_left (hnew'.symm.trans hnew)
  rcases hrun hnot with hwaits | hsend | hcarried
  · obtain ⟨version, hwatching⟩ := hwaits.watches
    obtain ⟨rest, hresyncing⟩ := hphase
    rw [hwatching] at hresyncing
    cases hresyncing
  · rw [hpending] at hsend
    cases hsend
  · exact hcarried

/-! ### An object that is late -/

/-- Nothing that happened supersedes the object or hands it out. -/
structure Ignores (new : List (Occurrence β)) (o : Object β) : Prop where
  superseded : ¬ Superseded new o
  carried : .carried (.send o.route o) ∉ new

theorem Ignores.append {new new' : List (Occurrence β)} {o : Object β} (h : Ignores new o)
    (h' : Ignores new' o) : Ignores (new ++ new') o := by
  refine ⟨?_, ?_⟩
  · rintro ⟨t, phase, e, hmem, he⟩
    rcases List.mem_append.1 hmem with hmem | hmem
    · exact h.superseded ⟨t, phase, e, hmem, he⟩
    · exact h'.superseded ⟨t, phase, e, hmem, he⟩
  · intro hmem
    exact (List.mem_append.1 hmem).elim h.carried h'.carried

/-- Some run comes to the next list without the object. -/
def Misses (l : Loop β) (o : Object β) : Prop :=
  ∃ l' new, TimelyRun l l' ∧ l'.past = l.past ++ new ∧ l'.pending = [] ∧
    (∃ rest, l'.machine.phase = .resyncing rest) ∧ Ignores new o

theorem Misses.not_reaches {l : Loop β} {o : Object β} (h : Misses l o) : ¬ Reaches l o := by
  obtain ⟨l', new, hrun, hnew, hpending, hphase, hignores⟩ := h
  intro hreaches
  exact hignores.carried (hreaches l' new hrun hnew hpending hphase hignores.superseded)

theorem ignores_took {i : Input β} {o : Object β} (hi : ∀ e, i = .event e → ¬ Supersedes e o)
    {outs : List (Output β)} (houts : .send o.route o ∉ outs) (t : Instant) (phase : Phase) :
    Ignores (.took t phase i :: outs.map .carried) o := by
  refine ⟨?_, ?_⟩
  · rintro ⟨t', phase', e, hmem, he⟩
    obtain ⟨-, -, rfl⟩ : t' = t ∧ phase' = phase ∧ .event e = i := by simpa using hmem
    exact hi e rfl he
  · intro hmem
    exact houts (by simpa using hmem)

/-- What happens next, and is carried out at once, changes nothing about an object being missed. -/
theorem Misses.of_take {l : Loop β} {o : Object β} {t : Instant} {i : Input β}
    (hstep : Timely l (l.take t i)) (hi : ∀ e, i = .event e → ¬ Supersedes e o)
    (houts : .send o.route o ∉ (l.machine.step t i).2) (h : Misses (l.take t i).settle o) :
    Misses l o := by
  obtain ⟨l', new, hrun, hnew, hpending, hphase, hignores⟩ := h
  refine ⟨l', .took t l.machine.phase i :: (l.machine.step t i).2.map .carried ++ new,
    .head hstep ((settle_of_carry Timely.carry _).trans hrun), ?_, hpending, hphase,
    (ignores_took hi houts t _).append hignores⟩
  rw [hnew]
  simp [settle, take]

/-- Nothing is left to carry out, and the turn that is running may still go on. -/
structure Idle (l : Loop β) : Prop where
  pending : l.pending = []
  watches : l.machine.Watches
  now_le : l.now ≤ l.machine.pacedAt.ceilMillis

/-- The next resync may come now if its time comes before the end of the turn, or if the queue is
empty. -/
theorem Idle.misses_of_due {l : Loop β} (h : Idle l)
    (hdue : l.machine.paced = [] ∨ l.machine.resyncAt ≤ l.machine.pacedAt.ceilMillis)
    (o : Object β) : Misses l o := by
  obtain ⟨t, hnow, hresyncAt, hle⟩ : ∃ t : Instant, l.now ≤ t.time ∧ l.machine.resyncAt ≤ t.time ∧
      (t.time ≤ l.now ∨ t.time ≤ l.machine.resyncAt) :=
    ⟨⟨⟨max l.now.nanos l.machine.resyncAt.nanos⟩, default⟩, Nat.le_max_left .., Nat.le_max_right ..,
      by simp only [Duration.le_iff]; omega⟩
  obtain ⟨version, hwatching⟩ := h.watches
  obtain ⟨hphase, -, -, houts⟩ := State.step_resyncDue hwatching t
  have hstep : Timely l (l.take t .resyncDue) := by
    refine .take t _ h.pending hnow
      ⟨_, h.watches.mem_timers.2 (.inl ⟨rfl, rfl⟩), hresyncAt⟩ trivial ?_
    intro due j hmem
    rcases h.watches.mem_timers.1 hmem with ⟨rfl, -⟩ | ⟨hne, rfl, -⟩
    · exact hle.imp_right fun hle => Nat.le_trans hle (Duration.le_ceilMillis _)
    · exact hle.imp_right fun hle => Nat.le_trans hle (hdue.resolve_left hne)
  have hignores : Ignores (.took t l.machine.phase .resyncDue ::
      (l.machine.step t .resyncDue).2.map .carried) o :=
    ignores_took (by simp) (by simp [houts]) t l.machine.phase
  refine ⟨(l.take t .resyncDue).settle, _, .head hstep (settle_of_carry Timely.carry _), ?_, rfl,
    ⟨_, hphase⟩, hignores⟩
  simp [settle, take]

/-- A turn that ended as late as it could. -/
structure Turn (l : Loop β) (p : Object β) (rest : List (Object β)) (l' : Loop β) : Prop where
  idle : Idle l'
  cache : l'.machine.cache = l.machine.cache
  config : l'.machine.config = l.machine.config
  resyncAt : l'.machine.resyncAt = l.machine.resyncAt
  paced : l'.machine.paced = rest
  pacedAt : l'.machine.pacedAt.ceilMillis.nanos = l.machine.pacedAt.ceilMillis.nanos +
    if l.machine.Current p then l.machine.config.rateWait.ceilMillis.nanos else 0
  misses : ∀ o, (p = o → ¬ l.machine.Current o) → Misses l' o → Misses l o

/-- Until the next resync is due a turn may end on the last millisecond. -/
theorem Idle.timely_of_lt {l : Loop β} (h : Idle l)
    (hlt : l.machine.pacedAt.ceilMillis < l.machine.resyncAt) {i : Input β}
    (hi : l.machine.Awaits l.machine.pacedAt.ceilMillis i) (hsteady : i.Steady) :
    Timely l (l.take ⟨l.machine.pacedAt.ceilMillis, default⟩ i) := by
  refine .take _ i h.pending h.now_le hi hsteady ?_
  intro due j hmem
  rcases h.watches.mem_timers.1 hmem with ⟨rfl, -⟩ | ⟨-, rfl, -⟩
  · exact .inr (Nat.le_trans (Nat.le_of_lt hlt) (Duration.le_ceilMillis _))
  · exact .inr (Nat.le_refl _)

/-- What a turn does that ends on the last millisecond. -/
theorem emitPaced_of_cons {s : State β} {p : Object β} {rest : List (Object β)}
    (hpaced : s.paced = p :: rest) : ∃ pacedAt outs,
      s.emitPaced s.pacedAt.ceilMillis = ({ s with paced := rest, pacedAt := pacedAt }, outs) ∧
        pacedAt.ceilMillis.nanos = s.pacedAt.ceilMillis.nanos +
          (if s.Current p then s.config.rateWait.ceilMillis.nanos else 0) ∧
        ∀ o, .send o.route o ∈ outs → p = o ∧ s.Current o := by
  by_cases hp : s.Current p
  · refine ⟨_, _, State.emitPaced_of_current hpaced hp _, ?_, ?_⟩
    · rw [Duration.nanos_ceilMillis_add, if_pos hp]
    · intro o ho
      rw [List.mem_singleton, Output.send.injEq] at ho
      obtain ⟨-, rfl⟩ := ho
      exact ⟨rfl, hp⟩
  · refine ⟨s.pacedAt, _, State.emitPaced_of_not_current hpaced hp _, ?_, by simp⟩
    rw [if_neg hp, Nat.add_zero]

theorem Idle.exists_turn {l : Loop β} (h : Idle l) {p : Object β} {rest : List (Object β)}
    (hpaced : l.machine.paced = p :: rest)
    (hlt : l.machine.pacedAt.ceilMillis < l.machine.resyncAt) : ∃ l', Turn l p rest l' := by
  have hstep := h.timely_of_lt hlt (i := .pacedDue)
    ⟨_, h.watches.mem_timers.2 (.inr ⟨by simp [hpaced], rfl, rfl⟩), Duration.le_ceilMillis _⟩
    trivial
  obtain ⟨pacedAt, outs, hemit, hpacedAt, houts⟩ := emitPaced_of_cons hpaced
  rw [← h.watches.step_pacedDue ⟨l.machine.pacedAt.ceilMillis, default⟩] at hemit
  have hmachine :
      (l.take ⟨l.machine.pacedAt.ceilMillis, default⟩ .pacedDue).settle.machine =
        { l.machine with paced := rest, pacedAt := pacedAt } := by
    rw [settle_machine, take_machine, hemit]
  obtain ⟨version, hphase⟩ := h.watches
  refine ⟨(l.take ⟨l.machine.pacedAt.ceilMillis, default⟩ .pacedDue).settle,
    ⟨rfl, ⟨version, by rw [hmachine, hphase]⟩, ?_⟩, ?_, ?_, ?_, ?_, ?_, ?_⟩
  · rw [hmachine, Duration.le_iff, hpacedAt]
    exact Nat.le_add_right ..
  · rw [hmachine]
  · rw [hmachine]
  · rw [hmachine]
  · rw [hmachine]
  · rw [hmachine, hpacedAt]
  · intro o ho hmisses
    refine .of_take hstep (by simp) ?_ hmisses
    rw [hemit]
    intro hsend
    obtain ⟨hpo, hcurrent⟩ := houts o hsend
    exact ho hpo hcurrent

/-- At the end of a turn the watch may report the object that comes next once more, so that it is
current. -/
theorem Idle.exists_report {l : Loop β} (h : Idle l)
    (hlt : l.machine.pacedAt.ceilMillis < l.machine.resyncAt) (p : Object β) :
    ∃ l', Idle l' ∧ l.machine.SameSchedule l'.machine ∧ l'.machine.Current p ∧
      ∀ o, p.key ≠ o.key → l.machine.Current o → l'.machine.Current o ∧
        (Misses l' o → Misses l o) := by
  have hstep := h.timely_of_lt hlt (i := .event (.modified p)) h.watches trivial
  obtain ⟨hwatches, hsame, hcache, houts⟩ :=
    h.watches.step_event ⟨l.machine.pacedAt.ceilMillis, default⟩ (.modified p)
  refine ⟨(l.take ⟨l.machine.pacedAt.ceilMillis, default⟩ (.event (.modified p))).settle,
    ⟨rfl, hwatches, ?_⟩, hsame, ?_, ?_⟩
  · rw [settle_machine, take_machine, hsame.pacedAt]
    exact Nat.le_refl _
  · have hcurrent := l.machine.current_handleChange p
    rw [State.Current] at hcurrent ⊢
    rw [settle_machine, take_machine, hcache]
    exact hcurrent
  · intro o hne ho
    have he : ¬ Supersedes (.modified p) o := fun he => hne he.1
    refine ⟨?_, fun hmisses => ?_⟩
    · have hcurrent := ho.handleEvent he
      rw [State.Current] at hcurrent ⊢
      rw [settle_machine, take_machine, hcache]
      exact hcurrent
    · refine .of_take hstep ?_ ?_ hmisses
      · rintro e ⟨⟩
        exact he
      · rw [houts, State.handleEvent, State.handleChange]
        split
        · rw [List.mem_singleton, Output.send.injEq]
          rintro ⟨-, rfl⟩
          exact hne rfl
        · simp

/-- What is not current is passed over, if its turn comes at all. -/
theorem Idle.misses_of_not_current {l : Loop β} {o : Object β} (h : Idle l)
    (ho : ¬ l.machine.Current o) : Misses l o := by
  induction hqueue : l.machine.paced generalizing l with
  | nil => exact h.misses_of_due (.inl hqueue) o
  | cons p rest ih =>
    by_cases hdue : l.machine.resyncAt ≤ l.machine.pacedAt.ceilMillis
    · exact h.misses_of_due (.inr hdue) o
    · obtain ⟨l', hturn⟩ := h.exists_turn hqueue (Nat.lt_of_not_le hdue)
      refine hturn.misses o (fun _ => ho) (ih hturn.idle ?_ hturn.paced)
      rwa [State.Current, hturn.cache]

/-- If every turn before that of `o` ends as late as it can, the next resync is due by then. -/
def Late (l : Loop β) (o : Object β) (before : List (Object β)) : Prop :=
  l.machine.resyncAt.nanos ≤ l.machine.pacedAt.ceilMillis.nanos +
    ahead o before * l.machine.config.rateWait.ceilMillis.nanos

/-- The turn of an object that takes its turn is one of those that `o` is late by. -/
theorem Turn.late {l l' : Loop β} {o p : Object β} {rest before : List (Object β)}
    (h : Turn l p rest l')
    (hp : (p.key != o.key || p.version == o.version) = true → l.machine.Current p)
    (hlate : Late l o (p :: before)) : Late l' o before := by
  rw [Late, ahead_cons] at hlate
  rw [Late, h.resyncAt, h.pacedAt, h.config]
  refine Nat.le_trans hlate ?_
  split
  case isTrue htakes =>
    refine Nat.le_of_eq ?_
    rw [if_pos (hp htakes), Nat.add_mul, Nat.one_mul, Nat.add_assoc, Nat.add_comm (_ * _)]
  case isFalse =>
    rw [Nat.add_zero]
    exact Nat.add_le_add_right (Nat.le_add_right ..) _

/-- A late object is missed if the turns before its own end as late as they can. An object that was
overtaken by another of its key gets a turn because the watch reports it once more. -/
theorem Idle.misses_of_late {l : Loop β} {o : Object β} (h : Idle l) (ho : l.machine.Current o)
    {before after : List (Object β)} (hpaced : l.machine.paced = before ++ o :: after)
    (hmem : o ∉ before) (hlate : Late l o before) : Misses l o := by
  induction before generalizing l with
  | nil =>
    refine h.misses_of_due (.inr ?_) o
    rw [Late, ahead, List.countP_nil, Nat.zero_mul, Nat.add_zero] at hlate
    exact hlate
  | cons p before ih =>
    obtain ⟨hne, hmem⟩ := List.ne_and_not_mem_of_not_mem_cons hmem
    by_cases hdue : l.machine.resyncAt ≤ l.machine.pacedAt.ceilMillis
    · exact h.misses_of_due (.inr hdue) o
    have hlt := Nat.lt_of_not_le hdue
    by_cases hkey : p.key = o.key
    · obtain ⟨l', hturn⟩ := h.exists_turn hpaced hlt
      refine hturn.misses o (fun hpo => absurd hpo.symm hne) (ih hturn.idle ?_ hturn.paced hmem ?_)
      · rwa [State.Current, hturn.cache]
      · refine hturn.late ?_ hlate
        intro htakes
        have hversion : p.version = o.version := by simpa [hkey] using htakes
        rwa [State.Current, hkey, hversion]
    · obtain ⟨l₁, hidle, hsame, hp, hreport⟩ := h.exists_report hlt p
      obtain ⟨ho₁, hmisses⟩ := hreport o hkey ho
      have hlt₁ : l₁.machine.pacedAt.ceilMillis < l₁.machine.resyncAt := by
        rwa [hsame.pacedAt, hsame.resyncAt]
      have hlate₁ : Late l₁ o (p :: before) := by
        rwa [Late, hsame.pacedAt, hsame.resyncAt, hsame.config]
      obtain ⟨l₂, hturn⟩ := hidle.exists_turn (hsame.paced.trans hpaced) hlt₁
      refine hmisses (hturn.misses o (fun hpo => absurd hpo.symm hne)
        (ih hturn.idle ?_ hturn.paced hmem (hturn.late (fun _ => hp) hlate₁)))
      rwa [State.Current, hturn.cache]

/-! ### Which objects are reached -/

/-- The list of a resync is applied. -/
theorem machine_take_listed {l : Loop β} {version : String}
    (hphase : l.machine.phase = .resyncing (.watching version)) (t : Instant)
    (list : ObjectList β) :
    (l.take t (.listed (.ok list))).settle.machine =
      { (l.machine.applyResync t.time list.items).1 with
        phase := .resting (.watching version) } := by
  simp only [settle_machine, take_machine, State.step, hphase, State.stepResynced]

theorem current_take_listed {l : Loop β} {version : String}
    (hphase : l.machine.phase = .resyncing (.watching version)) (t : Instant)
    (list : ObjectList β) (o : Object β) :
    (l.take t (.listed (.ok list))).settle.machine.Current o ↔
      (Cache.lastOf list.items o.key).map Object.version = some o.version := by
  rw [State.Current, machine_take_listed hphase]
  exact Eq.congr_left (l.machine.version_applyResync t.time list.items o.key)

theorem idle_take_listed {l : Loop β} {version : String}
    (hphase : l.machine.phase = .resyncing (.watching version)) (t : Instant)
    (list : ObjectList β) : Idle (l.take t (.listed (.ok list))).settle := by
  have hmachine := machine_take_listed hphase t list
  refine ⟨rfl, ⟨version, by rw [hmachine]⟩, ?_⟩
  rw [hmachine]
  exact Duration.le_ceilMillis t.time

/-- A resync that is answered so late, or lists so much, that the next one comes before an object
has its turn does not reach that object. -/
theorem not_reaches_of_late {l : Loop β} {version : String}
    (hphase : l.machine.phase = .resyncing (.watching version)) (t : Instant)
    {list : ObjectList β} {before after : List (Object β)} {o : Object β}
    (hitems : list.items = before ++ o :: after) (ho : o ∉ before)
    (hlate : l.machine.resyncAt.nanos ≤ t.time.ceilMillis.nanos +
      ahead o before * l.machine.config.rateWait.ceilMillis.nanos) :
    ¬ (l.take t (.listed (.ok list))).settle.Reaches o := by
  have hmachine := machine_take_listed hphase t list
  have hidle := idle_take_listed hphase t list
  by_cases hcurrent : (l.take t (.listed (.ok list))).settle.machine.Current o
  · have hpaced : (l.take t (.listed (.ok list))).settle.machine.paced = before ++ o :: after := by
      rw [hmachine]
      exact hitems
    refine (hidle.misses_of_late hcurrent hpaced ho ?_).not_reaches
    rw [Late, hmachine]
    exact hlate
  · exact (hidle.misses_of_not_current hcurrent).not_reaches

/-- A resync reaches an object of its list, in every run that nothing holds up, exactly if the
object is the last of its key in the list and the turns of all objects that may come before it end
before the next resync is due. -/
theorem reaches_iff {l : Loop β} {version : String}
    (hphase : l.machine.phase = .resyncing (.watching version)) (t : Instant)
    {list : ObjectList β} {before after : List (Object β)} {o : Object β}
    (hitems : list.items = before ++ o :: after) (ho : o ∉ before) :
    (l.take t (.listed (.ok list))).settle.Reaches o ↔
      (Cache.lastOf list.items o.key).map Object.version = some o.version ∧
        t.time.ceilMillis.nanos + ahead o before * l.machine.config.rateWait.ceilMillis.nanos <
          l.machine.resyncAt.nanos := by
  have hmachine := machine_take_listed hphase t list
  have hidle := idle_take_listed hphase t list
  rw [← current_take_listed hphase t]
  constructor
  · intro hreaches
    refine ⟨Decidable.byContradiction fun hnot => ?_, Nat.lt_of_not_le fun hlate => ?_⟩
    · exact (hidle.misses_of_not_current hnot).not_reaches hreaches
    · exact not_reaches_of_late hphase t hitems ho hlate hreaches
  · rintro ⟨hcurrent, hlt⟩
    refine Waits.reaches ⟨hidle.watches, hcurrent, before, after,
      (t.time.nanos + 999999) / 1000000, ?_, Duration.le_ceilMillis t.time, ?_, ?_⟩
    · rw [hmachine]
      exact hitems
    · rw [hmachine]
      exact Duration.le_ceilMillis t.time
    · rw [hmachine]
      exact hlt

/-- A resync never reaches an object if the turns of those before it fill a whole period. -/
theorem not_reaches_of_period_le {l : Loop β} (hwatches : l.machine.Watches) {tick t : Instant}
    (hdue : l.machine.resyncAt ≤ tick.time) (ht : tick.time ≤ t.time) {list : ObjectList β}
    {before after : List (Object β)} {o : Object β} (hitems : list.items = before ++ o :: after)
    (ho : o ∉ before)
    (hfull : l.machine.config.resync.nanos ≤
      ahead o before * l.machine.config.rateWait.ceilMillis.nanos) :
    ¬ ((l.take tick .resyncDue).settle.take t (.listed (.ok list))).settle.Reaches o := by
  obtain ⟨version, hphase⟩ := hwatches
  obtain ⟨hresyncing, hresyncAt, hconfig, -⟩ := State.step_resyncDue hphase tick
  refine not_reaches_of_late (l := (l.take tick .resyncDue).settle) hresyncing t hitems ho ?_
  rw [settle_machine, take_machine, hresyncAt, hconfig]
  calc (State.nextResync l.machine.config.resync l.machine.resyncAt tick.time).nanos
    _ ≤ tick.time.nanos + l.machine.config.resync.nanos := State.nextResync_le hdue
    _ ≤ t.time.ceilMillis.nanos + ahead o before * l.machine.config.rateWait.ceilMillis.nanos :=
      Nat.add_le_add (Nat.le_trans ht (Duration.le_ceilMillis t.time)) hfull

/-- Three objects, two turns of which fit into a period. -/
def threeListed : ObjectList Unit :=
  ⟨[sample "a" "1" false, sample "b" "1" false, sample "c" "1" false], "1"⟩

/-- They are listed when the informer starts, and a second later a resync begins. -/
def untilResync : List (Instant × Input Unit) :=
  [(.ofMillis 0, .listed (.ok threeListed)), (.ofMillis 0, .opened (.ok ())),
    (.ofMillis 1000, .resyncDue)]

/-- A second between two resyncs, and two turns in it. -/
def twoTurns : Config := { resync := .ofMillis 1000, rateWait := .ofMillis 600 }

/-- The second object is reached. -/
theorem reaches_second :
    (((start twoTurns .zero).play untilResync).take (.ofMillis 1000)
      (.listed (.ok threeListed))).settle.Reaches (sample "b" "1" false) := by
  have hphase : ((start twoTurns .zero).play untilResync).machine.phase =
      .resyncing (.watching "1") := rfl
  have hitems : threeListed.items =
      [sample "a" "1" false] ++ sample "b" "1" false :: [sample "c" "1" false] := rfl
  exact (reaches_iff hphase (.ofMillis 1000) hitems (by decide)).2 ⟨by decide, by decide⟩

/-- The third is not: with turns at 1, 1.6 and 2.2 seconds the resync at 2 seconds comes before
it. -/
theorem starved :
    twoTurns.check = .ok twoTurns ∧ Reachable twoTurns ((start twoTurns .zero).play untilResync) ∧
      ¬ (((start twoTurns .zero).play untilResync).take (.ofMillis 1000)
        (.listed (.ok threeListed))).settle.Reaches (sample "c" "1" false) := by
  have hphase : ((start twoTurns .zero).play untilResync).machine.phase =
      .resyncing (.watching "1") := rfl
  have hitems : threeListed.items =
      [sample "a" "1" false, sample "b" "1" false] ++ sample "c" "1" false :: [] := rfl
  refine ⟨rfl, (Reachable.start _ _).play ⟨?_, ?_, ?_, ?_, ?_, ?_, trivial⟩, ?_⟩
  · decide
  · exact .inl ⟨.seed, rfl⟩
  · decide
  · exact ⟨"1", rfl⟩
  · decide
  · exact ⟨.ofMillis 1000, List.mem_cons_self .., by decide⟩
  · exact not_reaches_of_late hphase (.ofMillis 1000) hitems (by decide) (by decide)

end Loop

end Informer

end Reconciler
