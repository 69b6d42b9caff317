import Reconciler.Proofs.Informer.Calls
import Reconciler.Proofs.Informer.LastSeen

/-!
# What becomes of the queue of a resync

The list of a resync becomes the queue, and until the next one does, only turns change it. Each turn
takes the first object, so the turns go through the list in order, whatever loop the informer is in
when they come.

At its turn an object is sent, unless something told of its key since it was listed: a later object
of the same list with another version, a report of a change or of a removal, or a list that repaired
the cache. What tells last of a key decides.

## Main definitions

* `Occurrence.Resyncs`, `turns` : the list of a resync, and how many turns there were
* `State.Drains` : what a run leaves of the queue
* `Latest` : what told last of a key
* `Overtaken` : how an object is superseded while it waits
* `Outcome` : what can come of an object at its turn

## Main results

* `State.drains_step`, `Loop.drains_of_run` : only turns change the queue
* `Loop.exists_turn` : the state in which a turn is taken, and what it leads to
* `Loop.overtaken_of_not_lastSeen` : why an object is passed over
* `Loop.outcome_of_turn`, `Loop.turns_apart` : what comes of a turn, and when the next one is due
-/

namespace Reconciler

namespace Informer

variable {β : Type} {k v : String}

/-! ### Turns -/

/-- The list of a resync was applied, and is the queue from now on. -/
def Occurrence.Resyncs : Occurrence β → Prop
  | .took _ (.resyncing _) (.listed (.ok _)) => True
  | _ => False

theorem Occurrence.exists_of_resyncs {t : Instant} {phase : Phase} {i : Input β}
    (h : (Occurrence.took t phase i).Resyncs) :
    ∃ rest list, phase = .resyncing rest ∧ i = .listed (.ok list) := by
  unfold Resyncs at h
  split at h
  case h_1 heq => cases heq; exact ⟨_, _, rfl, rfl⟩
  case h_2 => cases h

/-- It was the turn of the first object of the queue. -/
def Occurrence.isTurn : Occurrence β → Bool
  | .took _ _ .pacedDue => true
  | _ => false

/-- How many turns there were. -/
def turns (past : List (Occurrence β)) : Nat := past.countP Occurrence.isTurn

@[simp] theorem turns_append (past past' : List (Occurrence β)) :
    turns (past ++ past') = turns past + turns past' :=
  List.countP_append ..

@[simp] theorem turns_carried (out : Output β) : turns [Occurrence.carried out] = 0 := rfl

namespace State

/-- After `n` turns the queue lacks its first `n` objects. The next turn is not due earlier than it
was. -/
structure Drains (s s' : State β) (n : Nat) : Prop where
  config : s'.config = s.config
  paced : s'.paced = s.paced.drop n
  pacedAt : s.pacedAt ≤ s'.pacedAt

theorem Drains.refl (s : State β) : s.Drains s 0 := ⟨rfl, rfl, Nat.le_refl _⟩

theorem Drains.trans {s s' s'' : State β} {n m : Nat} (h : s.Drains s' n) (h' : s'.Drains s'' m) :
    s.Drains s'' (n + m) where
  config := h'.config.trans h.config
  paced := by rw [h'.paced, h.paced, List.drop_drop]
  pacedAt := Nat.le_trans h.pacedAt h'.pacedAt

/-- A turn comes while the machine rests, for the first object of the queue. -/
theorem awaits_pacedDue {s : State β} {now : Duration} (h : s.Awaits now .pacedDue) :
    ∃ rest o queue, s.phase = .resting rest ∧ s.paced = o :: queue ∧ s.pacedAt ≤ now := by
  obtain ⟨due, hmem, hdue⟩ := h
  obtain ⟨rest, hphase, ⟨-, hresyncs⟩ | ⟨h, -⟩⟩ := exists_rest_of_mem_timers hmem
  · cases hpaced : s.paced with
    | nil => cases rest <;> simp_all [timers]
    | cons o queue =>
      refine ⟨rest, o, queue, hphase, rfl, ?_⟩
      cases rest <;> simp_all [timers]
  · cases h

/-- A turn that is due puts off the next one, if at all. -/
theorem drains_emitPaced {s : State β} {now : Duration} (hdue : s.pacedAt ≤ now) :
    s.Drains (s.emitPaced now).1 1 := by
  rw [emitPaced]
  split
  case h_1 hpaced => exact ⟨rfl, by rw [hpaced]; rfl, Nat.le_refl _⟩
  case h_2 o rest hpaced =>
    have hdrop : rest = s.paced.drop 1 := by rw [hpaced, List.drop_one, List.tail_cons]
    split
    · exact ⟨rfl, hdrop, Nat.le_trans hdue (Nat.le_add_right ..)⟩
    · exact ⟨rfl, hdrop, Nat.le_refl _⟩

theorem drains_stepWatch (s : State β) (t : Instant) (version : String) {i : Input β}
    (hi : (∃ e, i = .event e) ∨ (∃ e, i = .failed e) ∨ i = .closed) :
    s.Drains (s.stepWatch t version i).1 0 := by
  rcases hi with ⟨e, rfl⟩ | ⟨e, rfl⟩ | rfl
  · have hsame := s.sameSchedule_handleEvent e
    simp only [stepWatch, handleEvent_calm]
    exact ⟨hsame.config, hsame.paced, Nat.le_of_eq (congrArg Duration.nanos hsame.pacedAt.symm)⟩
  · simp only [stepWatch]
    split <;> exact ⟨rfl, rfl, Nat.le_refl _⟩
  · exact ⟨rfl, rfl, Nat.le_refl _⟩

/-- The queue only changes by turns, and by the list of a resync. -/
theorem drains_step {s : State β} {t : Instant} {i : Input β}
    (hi : s.Awaits t.time i ∨ i = .cancelled)
    (hresyncs : ¬ (Occurrence.took t s.phase i).Resyncs) :
    s.Drains (s.step t i).1 (turns [.took t s.phase i]) := by
  cases i with
  | cancelled =>
    simp only [step]
    split <;> exact ⟨rfl, rfl, Nat.le_refl _⟩
  | listed r =>
    obtain ⟨mode, hphase⟩ | ⟨rest, hphase⟩ := hi.resolve_right (by simp)
    · simp only [step, hphase]
      cases r <;> exact ⟨rfl, rfl, Nat.le_refl _⟩
    · simp only [step, hphase]
      cases r with
      | error e => exact ⟨rfl, rfl, Nat.le_refl _⟩
      | ok l => exact absurd (by rw [hphase]; trivial) hresyncs
  | opened r =>
    obtain ⟨version, hphase⟩ := hi.resolve_right (by simp)
    simp only [step, hphase, stepOpened]
    split
    · exact ⟨rfl, rfl, Nat.le_refl _⟩
    · split <;> exact ⟨rfl, rfl, Nat.le_refl _⟩
  | settled =>
    obtain ⟨resume, hphase⟩ := hi.resolve_right (by simp)
    simp only [step, hphase]
    exact ⟨rfl, rfl, Nat.le_refl _⟩
  | event | failed | closed =>
    obtain ⟨version, hphase⟩ := hi.resolve_right (by simp)
    simp only [step, hphase]
    exact s.drains_stepWatch t version (by simp)
  | pacedDue =>
    obtain ⟨rest, o, queue, hphase, -, hdue⟩ := awaits_pacedDue (hi.resolve_right (by simp))
    rw [step_pacedDue hphase]
    exact drains_emitPaced hdue
  | resyncDue =>
    obtain ⟨due, hdue, -⟩ := hi.resolve_right (by simp)
    obtain ⟨rest, hphase, -⟩ := exists_rest_of_mem_timers hdue
    obtain ⟨at_, hat⟩ : ∃ at_, nextResync s.config.resync s.resyncAt t.time = at_ := ⟨_, rfl⟩
    have hstep : s.step t .resyncDue = s.stepTimer t rest .resyncDue := by
      cases rest <;> simp only [step, hphase, stepWatch]
    rw [hstep, stepTimer_resyncDue hat]
    exact ⟨rfl, rfl, Nat.le_refl _⟩
  | pauseOver =>
    obtain ⟨due, hdue, -⟩ := hi.resolve_right (by simp)
    obtain ⟨rest, hphase, -⟩ := exists_rest_of_mem_timers hdue
    have hstep : s.step t .pauseOver = s.stepTimer t rest .pauseOver := by
      cases rest <;> simp only [step, hphase, stepWatch]
    rw [hstep]
    obtain _ | ⟨_, _ | _⟩ := rest <;> exact ⟨rfl, rfl, Nat.le_refl _⟩

/-- The list of a resync becomes the queue. -/
theorem step_of_resyncing {s : State β} {rest : Rest} (hphase : s.phase = .resyncing rest)
    (t : Instant) (list : ObjectList β) :
    (s.step t (.listed (.ok list))).1.paced = list.items ∧
      (s.step t (.listed (.ok list))).1.config = s.config := by
  simp only [step, hphase, stepResynced, applyResync, and_self]

/-- No input changes the configuration. -/
theorem config_step {s : State β} {t : Instant} {i : Input β}
    (hi : s.Awaits t.time i ∨ i = .cancelled) : (s.step t i).1.config = s.config := by
  by_cases hresyncs : (Occurrence.took t s.phase i).Resyncs
  · obtain ⟨rest, list, hphase, rfl⟩ := Occurrence.exists_of_resyncs hresyncs
    exact (step_of_resyncing hphase t list).2
  · exact (drains_step hi hresyncs).config

/-- At its turn an object is sent if it is current, and the next turn is put off then. -/
theorem step_of_turn {s : State β} {t : Instant} (hi : s.Awaits t.time .pacedDue) {o : Object β}
    {queue : List (Object β)} (hpaced : s.paced = o :: queue) :
    s.Current o ∧ (s.step t .pacedDue).2 = [.send o.route o] ∧
        (s.step t .pacedDue).1.pacedAt = t.time + s.config.rateWait ∨
      ¬ s.Current o ∧ (s.step t .pacedDue).2 = [.log (.resyncSuperseded o.key)] := by
  obtain ⟨rest, -, -, hphase, -, -⟩ := awaits_pacedDue hi
  rw [step_pacedDue hphase]
  by_cases hcurrent : s.Current o
  · rw [emitPaced_of_current hpaced hcurrent]
    exact .inl ⟨hcurrent, rfl, rfl⟩
  · rw [emitPaced_of_not_current hpaced hcurrent]
    exact .inr ⟨hcurrent, rfl⟩

end State

namespace Loop

variable {config : Config} {l l' : Loop β}

theorem past_take (l : Loop β) (t : Instant) (i : Input β) :
    (l.take t i).past = l.past ++ [.took t l.machine.phase i] := rfl

theorem Reachable.config_eq (hl : Reachable config l) : l.machine.config = config := by
  refine hl.invariant (P := fun l => l.machine.config = config) (fun _ => rfl) ?_
  intro l l' hstep h
  cases hstep with
  | carry hp => exact h
  | take t i hp ht hi => exact (State.config_step (.inl hi)).trans h
  | cancel t ht hs => exact (State.config_step (.inr rfl)).trans h

/-- Between two resyncs only turns change the queue. -/
theorem exists_drains_of_run (hrun : Run l l') : ∃ since, l'.past = l.past ++ since ∧
    ((∀ x ∈ since, ¬ x.Resyncs) → l.machine.Drains l'.machine (turns since)) := by
  induction hrun with
  | refl => exact ⟨[], by simp, fun _ => .refl _⟩
  | @tail m l' hrun hstep ih =>
    obtain ⟨since, hpast, hdrains⟩ := ih
    have htaken (t : Instant) {i : Input β} (hi : m.machine.Awaits t.time i ∨ i = .cancelled) :
        ∃ since, (m.take t i).past = l.past ++ since ∧ ((∀ x ∈ since, ¬ x.Resyncs) →
          l.machine.Drains (m.take t i).machine (turns since)) := by
      refine ⟨since ++ [.took t m.machine.phase i], by simp [take, hpast], fun hquiet => ?_⟩
      obtain ⟨hbefore, hlast⟩ := List.forall_mem_append.1 hquiet
      rw [turns_append]
      exact (hdrains hbefore).trans (State.drains_step hi (hlast _ (List.mem_singleton_self _)))
    cases hstep with
    | @carry out rest hp =>
      refine ⟨since ++ [.carried out], by simp [hpast], fun hquiet => ?_⟩
      rw [turns_append, turns_carried, Nat.add_zero]
      exact hdrains (List.forall_mem_append.1 hquiet).1
    | take t i hp ht hi => exact htaken t (.inl hi)
    | cancel t ht hs => exact htaken t (.inr rfl)

theorem drains_of_run (hrun : Run l l') {since : List (Occurrence β)}
    (hpast : l'.past = l.past ++ since) (hsince : ∀ x ∈ since, ¬ x.Resyncs) :
    l.machine.Drains l'.machine (turns since) := by
  obtain ⟨since', hpast', hdrains⟩ := exists_drains_of_run hrun
  obtain rfl : since' = since := List.append_cancel_left (hpast'.symm.trans hpast)
  exact hdrains hsince

variable {before s₁ s₂ : List (Occurrence β)} {t t' : Instant} {rest : Rest} {phase : Phase}
  {list : ObjectList β} {o : Object β}

/-- The turns since the last resync go through its list in order. -/
theorem Reachable.queue (hl : Reachable config l)
    (hpast : l.past = before ++ .took t (.resyncing rest) (.listed (.ok list)) :: s₁)
    (hquiet : ∀ x ∈ s₁, ¬ x.Resyncs) : l.machine.paced = list.items.drop (turns s₁) := by
  obtain ⟨l₀, hl₀, rfl, hphase, -, -, hrun⟩ := exists_take hl hpast
  have hsince : l.past = (l₀.take t (.listed (.ok list))).past ++ s₁ := by
    rw [past_take, hphase, hpast, List.append_assoc, List.singleton_append]
  rw [(drains_of_run hrun hsince hquiet).paced, take_machine,
    (State.step_of_resyncing hphase t list).1]

/-- Every turn is taken in a state of the run, by the object whose turn it is. -/
theorem exists_turn (hl : Reachable config l)
    (hpast : l.past = before ++ .took t (.resyncing rest) (.listed (.ok list)) ::
      (s₁ ++ .took t' phase .pacedDue :: s₂))
    (hquiet : ∀ x ∈ s₁, ¬ x.Resyncs) :
    ∃ l₁ o, Reachable config l₁ ∧
      l₁.past = before ++ .took t (.resyncing rest) (.listed (.ok list)) :: s₁ ∧
      l₁.machine.Awaits t'.time .pacedDue ∧ list.items[turns s₁]? = some o ∧
      l₁.machine.paced = o :: list.items.drop (turns s₁ + 1) ∧
      l.past = (l₁.take t' .pacedDue).past ++ s₂ ∧ Run (l₁.take t' .pacedDue) l := by
  rw [← List.cons_append, ← List.append_assoc] at hpast
  obtain ⟨l₁, hl₁, hpast₁, hphase, hi, -, hrun⟩ := exists_take hl hpast
  have hawaits : l₁.machine.Awaits t'.time .pacedDue := (hi.resolve_right (by simp)).2
  obtain ⟨-, o, queue, -, hpaced, -⟩ := State.awaits_pacedDue hawaits
  have hqueue : o :: queue = list.items.drop (turns s₁) :=
    hpaced.symm.trans (hl₁.queue hpast₁ hquiet)
  have hfirst : list.items[turns s₁]? = some o := by
    rw [← List.head?_drop, ← hqueue, List.head?_cons]
  have hrest : queue = list.items.drop (turns s₁ + 1) := by
    rw [← List.tail_drop, ← hqueue, List.tail_cons]
  have hsince : l.past = (l₁.take t' .pacedDue).past ++ s₂ := by
    rw [past_take, hphase, hpast₁, hpast]
    simp
  exact ⟨l₁, o, hl₁, hpast₁, hawaits, hfirst, hrest ▸ hpaced, hsince, hrun⟩

/-- What is wanted first comes next, unless the informer is cancelled. -/
theorem exists_next (hrun : Run l' l) {out : Output β} {wanted : List (Output β)}
    (hp : l'.pending = out :: wanted) : ∃ since x more, l.past = l'.past ++ since ∧
      since ++ l.pending.map .carried = x :: more ∧
        (x = .carried out ∨ ∃ t phase, x = .took t phase .cancelled) := by
  induction hrun with
  | refl => exact ⟨[], .carried out, wanted.map .carried, by simp, by simp [hp], .inl rfl⟩
  | @tail l₁ l hrun hstep ih =>
    obtain ⟨since, x, more, hpast, hnext, hx⟩ := ih
    obtain ⟨y, hy⟩ := hstep.exists_past
    cases since with
    | cons first since =>
      obtain ⟨rfl, -⟩ := List.cons.inj hnext
      refine ⟨first :: since ++ [y], first, since ++ y :: l.pending.map .carried, ?_, ?_, hx⟩
      · rw [hy, hpast, List.append_assoc]
      · simp
    | nil =>
      -- nothing happened yet, so this is what comes next
      rw [List.append_nil] at hpast
      refine ⟨[y], y, l.pending.map .carried, by rw [hy, hpast], rfl, ?_⟩
      cases hstep with
      | @carry out' rest hp' =>
        obtain rfl : Occurrence.carried out' = y :=
          List.cons.inj (List.append_cancel_left hy) |>.1
        rw [List.nil_append, hp', List.map_cons] at hnext
        obtain ⟨rfl, -⟩ := List.cons.inj hnext
        exact hx.imp_right fun ⟨t, phase, hcancel⟩ => by cases hcancel
      | take t i hp' ht hi => simp [hp'] at hnext
      | cancel t ht hs =>
        exact .inr ⟨t, _, (List.cons.inj (List.append_cancel_left hy)).1.symm⟩

end Loop

/-! ### What told last of a key -/

/-- Something that happened tells about a key: it shows a copy, or that there is none. -/
def Occurrence.Tells (k : String) (x : Occurrence β) : Prop := x.copies k ≠ [] ∨ x.drops k = true

/-- The last thing in the history that tells about a key. -/
def Latest (past : List (Occurrence β)) (k : String) (x : Occurrence β) : Prop :=
  ∃ before since, past = before ++ x :: since ∧ x.Tells k ∧ ∀ y ∈ since, ¬ y.Tells k

theorem exists_latest {past : List (Occurrence β)} (h : ∃ x ∈ past, x.Tells k) :
    ∃ x, Latest past k x := by
  induction past using List.reverseRecOn with
  | nil => simp at h
  | append_singleton past x ih =>
    by_cases hx : x.Tells k
    · exact ⟨x, past, [], rfl, hx, by simp⟩
    · obtain ⟨y, before, since, rfl, hy, hsince⟩ := ih (by
        obtain ⟨y, hmem, hy⟩ := h
        rcases List.mem_append.1 hmem with hmem | hmem
        · exact ⟨y, hmem, hy⟩
        · exact absurd (List.mem_singleton.1 hmem ▸ hy) hx)
      refine ⟨y, before, since ++ [x], by simp, hy, ?_⟩
      intro z hz
      rcases List.mem_append.1 hz with hz | hz
      · exact hsince z hz
      · rwa [List.mem_singleton.1 hz]

theorem Latest.append {past : List (Occurrence β)} {x : Occurrence β} (h : Latest past k x)
    (earlier : List (Occurrence β)) : Latest (earlier ++ past) k x := by
  obtain ⟨before, since, rfl, hx, hsince⟩ := h
  exact ⟨earlier ++ before, since, by simp, hx, hsince⟩

/-- What told last of a key tells what was last seen of it. -/
theorem Latest.not_lastSeen {past : List (Occurrence β)} {x : Occurrence β} (h : Latest past k x)
    (hnot : ¬ LastSeen past k v) :
    (∃ p, (x.copies k).getLast? = some p ∧ p.version ≠ v) ∨ x.copies k = [] ∧ x.drops k = true := by
  obtain ⟨before, since, rfl, hx, hsince⟩ := h
  rcases List.eq_nil_or_concat (x.copies k) with hnone | ⟨copies, p, hcopies⟩
  · exact .inr ⟨hnone, hx.resolve_left (not_not_intro hnone)⟩
  · refine .inl ⟨p, by simp [hcopies], fun hversion => hnot ?_⟩
    refine ⟨before, x, since, p, rfl, by simp [hcopies], hversion, fun y hy => ?_⟩
    have hy := hsince y hy
    rw [Occurrence.Tells, not_or, not_not, Bool.not_eq_true] at hy
    exact hy

/-! ### Objects that are passed over -/

/-- What became of an object that waited in the queue, with `later` behind it: this told last of its
key. -/
inductive Overtaken (o : Object β) (later : List (Object β)) : Occurrence β → Prop where
  /-- Another version of it was listed behind it. -/
  | duplicate {t : Instant} {rest : Rest} {list : ObjectList β} {p : Object β}
      (hp : Cache.lastOf later o.key = some p) (hversion : p.version ≠ o.version) :
      Overtaken o later (.took t (.resyncing rest) (.listed (.ok list)))
  /-- The watch reported another version, or its removal. -/
  | reported {t : Instant} {phase : Phase} {e : WatchEvent β} (he : Supersedes e o) :
      Overtaken o later (.took t phase (.event e))
  /-- A list that repaired the cache had another version. -/
  | relisted {t : Instant} {list : ObjectList β} {p : Object β}
      (hp : Cache.lastOf list.items o.key = some p) (hversion : p.version ≠ o.version) :
      Overtaken o later (.took t (.listing .relist) (.listed (.ok list)))
  /-- A list that repaired the cache came without it. -/
  | missing {t : Instant} {list : ObjectList β} (hp : ∀ p ∈ list.items, p.key ≠ o.key) :
      Overtaken o later (.took t (.listing .relist) (.listed (.ok list)))

/-- What can come of an object at its turn, with `later` behind it in the queue. -/
inductive Outcome (past : List (Occurrence β)) (o : Object β) (later : List (Object β)) :
    Occurrence β → Prop where
  /-- It is sent. -/
  | sent : Outcome past o later (.carried (.send o.route o))
  /-- It was superseded while it waited. -/
  | passedOver {x : Occurrence β} (hlatest : Latest past o.key x) (h : Overtaken o later x) :
      Outcome past o later (.carried (.log (.resyncSuperseded o.key)))
  /-- The informer is cancelled. -/
  | cancelled (t : Instant) (phase : Phase) : Outcome past o later (.took t phase .cancelled)

/-- The last copy that a list shows is the last object of the list that has the key. -/
theorem getLast?_copies_listed (list : ObjectList β) (k : String) :
    ((Input.listed (.ok list)).copies k).getLast? = Cache.lastOf list.items k := by
  rw [Input.copies, Cache.lastOf, List.getLast?_eq_head?_reverse, ← List.filter_reverse,
    List.head?_filter]

/-- If the last object with the key of `o` has another version, it comes behind `o`. -/
theorem lastOf_drop {items : List (Object β)} {n : Nat} {o p : Object β}
    (ho : items[n]? = some o) (hp : Cache.lastOf items o.key = some p)
    (hversion : p.version ≠ o.version) : Cache.lastOf (items.drop (n + 1)) o.key = some p := by
  have hsplit : items = items.take n ++ o :: items.drop (n + 1) := by
    obtain ⟨hn, rfl⟩ := List.getElem?_eq_some_iff.1 ho
    rw [List.getElem_cons_drop, List.take_append_drop]
  rw [hsplit, Cache.lastOf] at hp
  cases hlater : Cache.lastOf (items.drop (n + 1)) o.key with
  | none =>
    rw [Cache.lastOf] at hlater
    simp [List.find?_append, hlater] at hp
    exact absurd (congrArg Object.version hp.symm) hversion
  | some q =>
    rw [Cache.lastOf] at hlater
    simpa [List.find?_append, hlater] using hp

/-- Once a resync has run, no first list is owed any more. -/
theorem owed_ne_seed {past : List (Occurrence β)} {mode : Option ListMode}
    (hmode : mode ≠ some .seed) : past.foldl Occurrence.owed mode ≠ some .seed := by
  induction past generalizing mode with
  | nil => exact hmode
  | cons x past ih =>
    refine ih ?_
    unfold Occurrence.owed
    split
    · simp
    · split <;> simp_all
    · split <;> simp_all
    · exact hmode

namespace Loop

variable {config : Config} {l : Loop β} {before s₁ s₂ : List (Occurrence β)} {t t' : Instant}
  {rest : Rest} {phase : Phase} {list list' : ObjectList β} {o : Object β}

/-- A list that is applied between two resyncs repairs the cache. -/
theorem phase_of_listed (hl : Reachable config l)
    (hpast : l.past = before ++ .took t (.resyncing rest) (.listed (.ok list)) ::
      (s₁ ++ .took t' phase (.listed (.ok list')) :: s₂))
    (hquiet : ¬ (Occurrence.took t' phase (.listed (.ok list'))).Resyncs) :
    phase = .listing .relist := by
  obtain ⟨l₀, hl₀, rfl, hphase₀, -, -, -⟩ := exists_take hl hpast
  rw [← List.cons_append, ← List.append_assoc] at hpast
  obtain ⟨l₁, hl₁, hpast₁, rfl, hi, -, -⟩ := exists_take hl hpast
  obtain ⟨mode, hphase⟩ | ⟨rest', hphase⟩ := (hi.resolve_right (by simp)).2
  · have howed₀ : owed l₀.past = none := by
      have hpays := (hl₀.fits.pays (by rw [hphase₀]; simp)).1
      rw [← hpays, hphase₀]
      rfl
    have howed : owed l₁.past = some mode := by
      have hpays := (hl₁.fits.pays (by rw [hphase]; simp)).1
      rw [← hpays, hphase]
      rfl
    have hne : owed l₁.past ≠ some .seed := by
      rw [hpast₁, owed, List.foldl_append, List.foldl_cons]
      refine owed_ne_seed ?_
      have hafter : Occurrence.owed (owed l₀.past)
          (.took t (.resyncing rest) (.listed (.ok list))) = owed l₀.past := rfl
      rw [← owed, hafter, howed₀]
      simp
    cases mode with
    | seed => exact absurd howed hne
    | relist => exact hphase
  · rw [hphase] at hquiet
    exact absurd trivial hquiet

/-- Something that came after the list of a resync, and shows another version of a key or tells that
there is none, supersedes the object. -/
theorem overtaken_of_told {i : Input β}
    (hphase : ∀ list', i = .listed (.ok list') → phase = .listing .relist)
    (htold : (∃ p, ((Occurrence.took t phase i).copies o.key).getLast? = some p ∧
        p.version ≠ o.version) ∨
      (Occurrence.took t phase i).copies o.key = [] ∧
        (Occurrence.took t phase i).drops o.key = true) (later : List (Object β)) :
    Overtaken o later (.took t phase i) := by
  cases i with
  | listed r =>
    cases r with
    | error e => simp [Occurrence.copies, Occurrence.drops, Input.copies, Input.drops] at htold
    | ok list' =>
      rw [hphase list' rfl] at htold ⊢
      rcases htold with ⟨p, hp, hversion⟩ | ⟨-, hdrops⟩
      · rw [Occurrence.copies, getLast?_copies_listed] at hp
        exact .relisted hp hversion
      · refine .missing ?_
        simpa [Occurrence.drops, Input.drops] using hdrops
  | event e =>
    refine .reported ?_
    cases e with
    | added p | modified p =>
      obtain ⟨q, hq, hversion⟩ :=
        htold.resolve_right (by simp [Occurrence.drops, Input.drops])
      have hcopies : (if p.key = o.key then [p] else []).getLast? = some q := hq
      split at hcopies
      case isTrue hkey => cases hcopies; exact ⟨hkey, hversion⟩
      case isFalse => cases hcopies
    | deleted p =>
      obtain ⟨-, hdrops⟩ := htold.resolve_left (by simp [Occurrence.copies, Input.copies])
      exact eq_of_beq hdrops
    | bookmark version =>
      simp [Occurrence.copies, Occurrence.drops, Input.copies, Input.drops] at htold
  | _ => simp [Occurrence.copies, Occurrence.drops, Input.copies, Input.drops] at htold

/-- An object that is not current at its turn was superseded since it was listed, and what told last
of its key superseded it. -/
theorem overtaken_of_not_lastSeen (hl : Reachable config l)
    (hpast : l.past = before ++ .took t (.resyncing rest) (.listed (.ok list)) :: s₁)
    (hquiet : ∀ x ∈ s₁, ¬ x.Resyncs) {n : Nat} (ho : list.items[n]? = some o)
    (hnot : ¬ LastSeen l.past o.key o.version) :
    ∃ x, Latest l.past o.key x ∧ Overtaken o (list.items.drop (n + 1)) x := by
  have hlisted :
      (Occurrence.took t (.resyncing rest) (.listed (.ok list))).copies o.key ≠ [] := by
    refine List.ne_nil_of_mem (a := o) ?_
    simp [Occurrence.copies, Input.copies, List.mem_of_getElem? ho]
  obtain ⟨x, hlatest⟩ := exists_latest (k := o.key)
    ⟨_, List.mem_cons_self (a := .took t (.resyncing rest) (.listed (.ok list))) (l := s₁),
      .inl hlisted⟩
  have htold := (hpast ▸ hlatest.append before).not_lastSeen hnot
  refine ⟨x, hpast ▸ hlatest.append before, ?_⟩
  obtain ⟨earlier, since, hsplit, hx, hsince⟩ := hlatest
  -- the list of the resync tells of the key, so what told last is this list or came after it
  rcases List.cons_eq_append_iff.1 hsplit with ⟨rfl, hcons⟩ | ⟨s, rfl, rfl⟩
  · obtain ⟨rfl, -⟩ := List.cons.inj hcons
    rcases htold with ⟨p, hp, hversion⟩ | ⟨hnone, -⟩
    · rw [Occurrence.copies, getLast?_copies_listed] at hp
      exact .duplicate (lastOf_drop ho hp hversion) hversion
    · exact absurd hnone hlisted
  · cases x with
    | carried out => simp [Occurrence.copies, Occurrence.drops] at htold
    | took t' phase i =>
      have hphase (list' : ObjectList β) (hi : i = .listed (.ok list')) :
          phase = .listing .relist := by
        subst hi
        exact phase_of_listed hl hpast (hquiet _ (by simp))
      exact overtaken_of_told hphase htold _

/-! ### What a turn comes to -/

/-- A turn takes the next object of the list, and what is to be done with it comes next. -/
theorem outcome_of_turn (hl : Reachable config l)
    (hpast : l.past = before ++ .took t (.resyncing rest) (.listed (.ok list)) ::
      (s₁ ++ .took t' phase .pacedDue :: s₂))
    (hquiet : ∀ x ∈ s₁, ¬ x.Resyncs) :
    ∃ o x more, list.items[turns s₁]? = some o ∧ s₂ ++ l.pending.map .carried = x :: more ∧
      Outcome (before ++ .took t (.resyncing rest) (.listed (.ok list)) :: s₁) o
        (list.items.drop (turns s₁ + 1)) x := by
  obtain ⟨l₁, o, hl₁, hpast₁, hi, ho, hpaced, hsince, hrun⟩ := exists_turn hl hpast hquiet
  obtain ⟨out, houts, hout⟩ : ∃ out, (l₁.take t' .pacedDue).pending = [out] ∧
      Outcome l₁.past o (list.items.drop (turns s₁ + 1)) (.carried out) := by
    rcases State.step_of_turn hi hpaced with ⟨-, houts, -⟩ | ⟨hcurrent, houts⟩
    · exact ⟨_, houts, .sent⟩
    · obtain ⟨y, hlatest, hovertaken⟩ :=
        overtaken_of_not_lastSeen hl₁ hpast₁ hquiet ho (by rwa [hl₁.lastSeen_iff])
      exact ⟨_, houts, .passedOver hlatest hovertaken⟩
  obtain ⟨since, x, more, hafter, hnext, hx⟩ := exists_next hrun houts
  obtain rfl : s₂ = since := List.append_cancel_left (hsince.symm.trans hafter)
  refine ⟨o, x, more, ho, hnext, ?_⟩
  rw [← hpast₁]
  rcases hx with rfl | ⟨t, phase, rfl⟩
  · exact hout
  · exact .cancelled t phase

/-- After an object was sent the next turn is not due before the pause is over. -/
theorem turns_apart {t₁ t₂ : Instant} {phase₁ phase₂ : Phase} {route : Route}
    {s₃ : List (Occurrence β)} (hl : Reachable config l)
    (hpast : l.past = before ++ .took t (.resyncing rest) (.listed (.ok list)) ::
      ((s₁ ++ .took t₁ phase₁ .pacedDue :: .carried (.send route o) :: s₂) ++
        .took t₂ phase₂ .pacedDue :: s₃))
    (hquiet : ∀ x ∈ s₁ ++ .took t₁ phase₁ .pacedDue :: .carried (.send route o) :: s₂,
      ¬ x.Resyncs) : t₁.time + config.rateWait ≤ t₂.time := by
  obtain ⟨l₂, -, hl₂, hpast₂, hi₂, -, -, -, -⟩ := exists_turn hl hpast hquiet
  obtain ⟨hbefore, hsince⟩ := List.forall_mem_append.1 hquiet
  obtain ⟨-, hsince⟩ := List.forall_mem_cons.1 hsince
  obtain ⟨l₁, o₁, hl₁, -, hi₁, -, hpaced₁, hafter, hrun⟩ := exists_turn hl₂ hpast₂ hbefore
  obtain ⟨rest₂, -, -, hphase₂, -, hdue⟩ := State.awaits_pacedDue hi₂
  have hdrains := drains_of_run hrun hafter hsince
  rcases State.step_of_turn hi₁ hpaced₁ with ⟨-, -, hpacedAt⟩ | ⟨-, houts⟩
  · have hnext := hdrains.pacedAt
    rw [take_machine, hpacedAt, hl₁.config_eq] at hnext
    exact Nat.le_trans hnext hdue
  · -- an object that is passed over is not sent
    obtain ⟨since, x, more, hsame, hnext, hx⟩ := exists_next hrun houts
    obtain rfl := List.append_cancel_left (hafter.symm.trans hsame)
    obtain ⟨rfl, -⟩ := List.cons.inj hnext
    simp at hx

end Loop

end Informer

end Reconciler
