import Reconciler.Proofs.Informer.Feed
import Reconciler.Proofs.Informer.Queue

/-!
# How far apart a resync hands its objects out

The pause between two objects of a resync runs from one turn to the next. A turn whose object finds
no room in its channel lasts until somebody takes from the stream, and the pause runs meanwhile. So
it is the turns that are apart. What leaves the informer is apart only if it did not have to wait:
after an object that did, the next one can follow at once.

Here the informer is seen together with its channels and the clock. Nothing takes time but waiting,
for an input or for room in a channel.

## Main definitions

* `Timed`, `Timed.Step` : an informer with its channels and the clock, and what can happen
* `Leaves` : an object of the queue has its turn at one time, and leaves at another
* `Timed.HandsOut` : what becomes of the list of a resync

## Main results

* `Timed.Reachable.consistent` : the record of a run
* `Timed.Run.prompt` : what has room is carried out at once
* `Timed.handsOut_of_resync` : the list is handed out in order, one turn at a time, and completely
* `Timed.sent_at_once` : two objects can leave at the same time
-/

namespace Reconciler

open Informer

variable {β : Type}

/-! ### Room in the channels -/

/-- The second channel has room for whatever the first has room for. -/
def Channel.Roomier {α : Type} (c c' : Channel α) : Prop :=
  ∀ a, c'.offer a = .full → c.offer a = .full

theorem Channel.Roomier.refl {α : Type} (c : Channel α) : c.Roomier c := fun _ => id

theorem Channel.offer_eq_full {α : Type} {c : Channel α} {a : α} :
    c.offer a = .full ↔ c.received = true ∧ c.capacity ≤ c.items.length := by
  unfold offer
  split
  · simp_all
  · split <;> simp_all

theorem Channel.roomier_of_take? {α : Type} {c c' : Channel α} {a : α}
    (h : c.take? = some (a, c')) : c.Roomier c' := by
  rw [take?] at h
  split at h
  case h_1 => cases h
  case h_2 b rest hitems =>
    cases h
    intro b' hfull
    obtain ⟨hreceived, hle⟩ := offer_eq_full.1 hfull
    exact offer_eq_full.2 ⟨hreceived, by rw [hitems]; exact Nat.le_succ_of_le hle⟩

theorem Channel.roomier_abandon {α : Type} (c : Channel α) : c.Roomier c.abandon :=
  fun _ hfull => absurd (offer_eq_full.1 hfull).1 (by simp [abandon])

theorem Offer.map_eq_full {γ δ : Type} {f : γ → δ} {o : Offer γ} : o.map f = .full ↔ o = .full := by
  cases o <;> simp [map]

/-- What a consumer does to the channels. -/
inductive Outlets.Consumed (outlets : Outlets β) : Outlets β → Prop where
  /-- It takes an item. -/
  | received {s : Stream} {item : Received β} {outlets' : Outlets β}
      (h : outlets.takeFrom? s = some (item, outlets')) : Consumed outlets outlets'
  /-- It goes away from a stream. -/
  | abandoned (s : Stream) : Consumed outlets (outlets.abandon s)

theorem Outlets.Consumed.roomier {outlets outlets' : Outlets β} (h : outlets.Consumed outlets') :
    outlets.updates.Roomier outlets'.updates ∧ outlets.deletes.Roomier outlets'.deletes ∧
      outlets.errors.Roomier outlets'.errors := by
  cases h with
  | @received s item _ h =>
    cases s with
    | update =>
      obtain ⟨r, htake, heq⟩ := Option.map_eq_some_iff.1 h
      cases heq
      exact ⟨Channel.roomier_of_take? htake, .refl _, .refl _⟩
    | delete =>
      obtain ⟨r, htake, heq⟩ := Option.map_eq_some_iff.1 h
      cases heq
      exact ⟨.refl _, Channel.roomier_of_take? htake, .refl _⟩
    | error =>
      obtain ⟨r, htake, heq⟩ := Option.map_eq_some_iff.1 h
      cases heq
      exact ⟨.refl _, .refl _, Channel.roomier_of_take? htake⟩
  | abandoned s =>
    cases s with
    | update => exact ⟨Channel.roomier_abandon _, .refl _, .refl _⟩
    | delete => exact ⟨.refl _, Channel.roomier_abandon _, .refl _⟩
    | error => exact ⟨.refl _, .refl _, Channel.roomier_abandon _⟩

/-- A consumer only makes room. -/
theorem Outlets.Consumed.full {outlets outlets' : Outlets β} (h : outlets.Consumed outlets')
    {o : Occurrence β} (hfull : outlets'.after o = .full) : outlets.after o = .full := by
  obtain ⟨hupdates, hdeletes, herrors⟩ := h.roomier
  unfold after at hfull ⊢
  split at hfull
  case h_1 route o =>
    cases route with
    | update => exact Offer.map_eq_full.2 (hupdates o (Offer.map_eq_full.1 hfull))
    | delete => exact Offer.map_eq_full.2 (hdeletes o (Offer.map_eq_full.1 hfull))
  case h_2 e => exact Offer.map_eq_full.2 (herrors e (Offer.map_eq_full.1 hfull))
  case h_3 => cases hfull

/-! ### An informer with its channels and the clock -/

/-- An informer with its channels and the clock. -/
structure Timed (β : Type) where
  /-- The informer. -/
  loop : Loop β
  /-- Its channels. -/
  outlets : Outlets β
  /-- The clock. -/
  clock : Duration
  /-- What happened in the informer, and when. -/
  record : List (Duration × Occurrence β) := []

namespace Timed

variable {config : Config} {x x' y : Timed β}

/-- The informer as it starts, with empty channels. -/
def start (config : Config) (now : Duration) : Timed β :=
  { loop := .start config now, outlets := .ofCapacity config.capacity, clock := now }

/-- Nothing can be carried out: nothing is wanted, or there is no room for it. -/
def isIdle (x : Timed β) : Bool :=
  match x.loop.pending with
  | [] => true
  | out :: _ =>
    match x.outlets.after (.carried out) with
    | .full => true
    | _ => false

theorem isIdle_of_pending_eq_nil (hp : x.loop.pending = []) : x.isIdle = true := by
  rw [isIdle, hp]

theorem isIdle_iff_full {out : Output β} {rest : List (Output β)}
    (hp : x.loop.pending = out :: rest) :
    x.isIdle = true ↔ x.outlets.after (.carried out) = .full := by
  simp only [isIdle, hp]
  split <;> simp_all

/-- Something happens in the informer. -/
def happen (x : Timed β) (loop : Loop β) (outlets : Outlets β) (now : Duration)
    (o : Occurrence β) : Timed β :=
  { loop := loop, outlets := outlets, clock := now, record := x.record ++ [(now, o)] }

/-- One step. Time passes only while nothing can be carried out. -/
inductive Step : Timed β → Timed β → Prop where
  /-- The next output is carried out: there is room for it, or nobody receives it. -/
  | carry {x : Timed β} {out : Output β} {rest : List (Output β)} {outlets : Outlets β}
      (hp : x.loop.pending = out :: rest)
      (hroom : x.outlets.after (.carried out) = .sent outlets ∨
        x.outlets.after (.carried out) = .discarded ∧ outlets = x.outlets) :
      Step x (x.happen { x.loop with pending := rest, past := x.loop.past ++ [.carried out] }
        outlets x.clock (.carried out))
  /-- Something happens that the machine waits for. -/
  | take {x : Timed β} (t : Instant) (i : Input β) (hp : x.loop.pending = [])
      (ht : x.clock ≤ t.time) (hi : x.loop.machine.Awaits t.time i) :
      Step x (x.happen (x.loop.take t i) x.outlets t.time (.took t x.loop.machine.phase i))
  /-- The informer is cancelled. -/
  | cancel {x : Timed β} (t : Instant) (ht : x.clock ≤ t.time)
      (hidle : t.time = x.clock ∨ x.isIdle = true) (hs : x.loop.machine.phase ≠ .stopped) :
      Step x (x.happen (x.loop.take t .cancelled) x.outlets t.time
        (.took t x.loop.machine.phase .cancelled))
  /-- The consumer does something. -/
  | consume {x : Timed β} {outlets : Outlets β} (now : Duration) (ht : x.clock ≤ now)
      (hidle : now = x.clock ∨ x.isIdle = true) (h : x.outlets.Consumed outlets) :
      Step x { x with outlets := outlets, clock := now }

/-- Any number of steps. -/
def Run : Timed β → Timed β → Prop := Relation.ReflTransGen Step

/-- What an informer with a configuration can come to. -/
def Reachable (config : Config) (x : Timed β) : Prop := ∃ now, Run (start config now) x

theorem Reachable.run (hx : Reachable config x) (hrun : Run x x') : Reachable config x' := by
  obtain ⟨now, hbefore⟩ := hx
  exact ⟨now, hbefore.trans hrun⟩

theorem Reachable.step (hx : Reachable config x) (hstep : Step x x') : Reachable config x' :=
  hx.run (.single hstep)

/-! ### Scripts -/

/-- Everything is carried out that there is room for. -/
def flush : List (Output β) → Timed β → Timed β
  | [], x => x
  | out :: rest, x =>
    match x.outlets.after (.carried out) with
    | .sent outlets =>
      flush rest (x.happen { x.loop with pending := rest, past := x.loop.past ++ [.carried out] }
        outlets x.clock (.carried out))
    | _ => x

theorem run_flush {outs : List (Output β)} (hp : x.loop.pending = outs) : Run x (flush outs x) := by
  induction outs generalizing x with
  | nil => exact .refl
  | cons out rest ih =>
    rw [flush]
    split
    case h_1 outlets hroom => exact Relation.ReflTransGen.head (.carry hp (.inl hroom)) (ih rfl)
    case h_2 => exact .refl

/-- One thing in a script. -/
inductive Move (β : Type) where
  /-- The informer takes an input. -/
  | take (t : Instant) (i : Input β)
  /-- The consumer takes an item. -/
  | receive (now : Duration) (s : Stream)

/-- What comes of it. -/
def move (x : Timed β) : Move β → Timed β
  | .take t i => x.happen (x.loop.take t i) x.outlets t.time (.took t x.loop.machine.phase i)
  | .receive now s =>
    match x.outlets.takeFrom? s with
    | some (_, outlets) => { x with outlets := outlets, clock := now }
    | none => x

/-- It can happen now. -/
def Allows (x : Timed β) : Move β → Prop
  | .take t i => x.loop.pending = [] ∧ x.clock ≤ t.time ∧ x.loop.machine.Awaits t.time i
  | .receive now s => x.clock ≤ now ∧ x.isIdle = true ∧ (x.outlets.takeFrom? s).isSome = true

theorem step_move {m : Move β} (h : x.Allows m) : Step x (x.move m) := by
  cases m with
  | take t i =>
    obtain ⟨hp, ht, hi⟩ := h
    exact .take t i hp ht hi
  | receive now s =>
    obtain ⟨ht, hidle, hsome⟩ := h
    obtain ⟨r, hr⟩ := Option.isSome_iff_exists.1 hsome
    simp only [move, hr]
    exact .consume now ht (.inr hidle) (.received hr)

/-- The things in a script happen one after the other. What there is room for is carried out before
each of them and after the last. -/
def play (x : Timed β) : List (Move β) → Timed β
  | [] => flush x.loop.pending x
  | m :: rest => ((flush x.loop.pending x).move m).play rest

/-- Everything in a script comes when it can happen. -/
def Admits (x : Timed β) : List (Move β) → Prop
  | [] => True
  | m :: rest =>
    (flush x.loop.pending x).Allows m ∧ ((flush x.loop.pending x).move m).Admits rest

theorem Reachable.play {script : List (Move β)} (hx : Reachable config x) (h : x.Admits script) :
    Reachable config (x.play script) := by
  induction script generalizing x with
  | nil => exact hx.run (run_flush rfl)
  | cons m rest ih =>
    obtain ⟨hm, hrest⟩ := h
    exact ih ((hx.run (run_flush rfl)).step (step_move hm)) hrest

/-! ### The record -/

/-- The record is the history with the times: they only grow, and an input is taken at its own
time. -/
structure Consistent (config : Config) (x : Timed β) : Prop where
  reachable : Loop.Reachable config x.loop
  past : x.record.map Prod.snd = x.loop.past
  now_le : x.loop.now ≤ x.clock
  sorted : x.record.Pairwise fun e e' => e.1 ≤ e'.1
  le_clock : ∀ e ∈ x.record, e.1 ≤ x.clock
  own : ∀ e ∈ x.record, ∀ t phase i, e.2 = .took t phase i → e.1 = t.time

theorem Consistent.happen (h : x.Consistent config) {loop : Loop β} {now : Duration}
    {o : Occurrence β} (hstep : Loop.Step x.loop loop) (hpast : loop.past = x.loop.past ++ [o])
    (hnow : loop.now ≤ now) (hclock : x.clock ≤ now)
    (hown : ∀ t phase i, o = .took t phase i → now = t.time) (outlets : Outlets β) :
    (x.happen loop outlets now o).Consistent config where
  reachable := h.reachable.step hstep
  past := by rw [Timed.happen, List.map_append, h.past, hpast]; rfl
  now_le := hnow
  sorted := by
    refine List.pairwise_append.2 ⟨h.sorted, List.pairwise_singleton .., ?_⟩
    intro e he e' he'
    rw [List.mem_singleton.1 he']
    exact Nat.le_trans (h.le_clock e he) hclock
  le_clock e he := by
    rcases List.mem_append.1 he with he | he
    · exact Nat.le_trans (h.le_clock e he) hclock
    · rw [List.mem_singleton.1 he]
      exact Nat.le_refl _
  own e he := by
    rcases List.mem_append.1 he with he | he
    · exact h.own e he
    · rw [List.mem_singleton.1 he]
      exact hown

theorem Consistent.step (h : x.Consistent config) (hstep : Step x x') :
    x'.Consistent config := by
  cases hstep with
  | carry hp hroom =>
    exact h.happen (.carry hp) rfl h.now_le (Nat.le_refl _) (by rintro t phase i ⟨⟩) _
  | take t i hp ht hi =>
    exact h.happen (.take t i hp (Nat.le_trans h.now_le ht) hi) rfl (Nat.le_refl _) ht
      (by rintro t phase i ⟨⟩; rfl) _
  | cancel t ht hidle hs =>
    exact h.happen (.cancel t (Nat.le_trans h.now_le ht) hs) rfl (Nat.le_refl _) ht
      (by rintro t phase i ⟨⟩; rfl) _
  | consume now ht hidle hconsumed =>
    exact ⟨h.reachable, h.past, Nat.le_trans h.now_le ht, h.sorted,
      fun e he => Nat.le_trans (h.le_clock e he) ht, h.own⟩

theorem Reachable.consistent (hx : Reachable config x) : x.Consistent config := by
  obtain ⟨now, hrun⟩ := hx
  induction hrun with
  | refl => exact ⟨.start config now, rfl, Nat.le_refl _, .nil, by simp [start], by simp [start]⟩
  | tail _ hstep ih => exact ih.step hstep

/-- What is recorded later happened later. -/
theorem Consistent.le (h : x.Consistent config) {before after} {e e' : Duration × Occurrence β}
    (hrecord : x.record = before ++ e :: after) (he' : e' ∈ after) : e.1 ≤ e'.1 := by
  have hsorted := h.sorted
  rw [hrecord] at hsorted
  exact List.rel_of_pairwise_cons (List.pairwise_append.1 hsorted).2.1 he'

/-- A recorded input was taken at its own time. -/
theorem Consistent.eq_time (h : x.Consistent config) {before after} {now : Duration} {t : Instant}
    {phase : Phase} {i : Input β} (hrecord : x.record = before ++ (now, .took t phase i) :: after) :
    now = t.time :=
  h.own (now, .took t phase i) (by simp [hrecord]) t phase i rfl

/-- A step adds at most one entry to the record. -/
theorem Step.record (hstep : Step x x') :
    x'.record = x.record ∨ ∃ e, x'.record = x.record ++ [e] := by
  cases hstep with
  | carry => exact .inr ⟨_, rfl⟩
  | take => exact .inr ⟨_, rfl⟩
  | cancel => exact .inr ⟨_, rfl⟩
  | consume => exact .inl rfl

/-- Every entry of the record was made by a step of the run, and the run went on from there. -/
theorem Reachable.exists_step (hx : Reachable config x) {before after}
    {e : Duration × Occurrence β} (hrecord : x.record = before ++ e :: after) :
    ∃ x₁ x₂ : Timed β, Reachable config x₁ ∧ Step x₁ x₂ ∧ x₁.record = before ∧
      x₂.record = before ++ [e] ∧ Run x₂ x := by
  obtain ⟨now, hrun⟩ := hx
  obtain ⟨x₁, x₂, hbefore, hstep, hrecord₁, hrecord₂, hafter⟩ :=
    exists_step_of_grows (fun h => h.record) rfl hrun hrecord
  exact ⟨x₁, x₂, ⟨now, hbefore⟩, hstep, hrecord₁, hrecord₂, hafter⟩

/-- Every recorded input was taken in a state of the run at that time. -/
theorem Reachable.exists_take (hx : Reachable config x) {before after} {now : Duration}
    {t : Instant} {phase : Phase} {i : Input β}
    (hrecord : x.record = before ++ (now, .took t phase i) :: after) :
    ∃ x₁ x₂ : Timed β, Reachable config x₁ ∧ Reachable config x₂ ∧ x₁.record = before ∧
      x₂.record = before ++ [(now, .took t phase i)] ∧ x₂.clock = now ∧
      x₂.loop = x₁.loop.take t i ∧ (x₁.loop.machine.Awaits t.time i ∨ i = .cancelled) ∧
        Run x₂ x := by
  obtain ⟨x₁, x₂, hx₁, hstep, rfl, hrecord₂, hrun⟩ := hx.exists_step hrecord
  have hx₂ := hx₁.step hstep
  cases hstep with
  | carry hp hroom =>
    obtain ⟨-, heq⟩ := List.append_inj' hrecord₂ rfl
    simp at heq
  | take t' i' hp ht hi =>
    obtain ⟨-, heq⟩ := List.append_inj' hrecord₂ rfl
    cases heq
    exact ⟨x₁, _, hx₁, hx₂, rfl, hrecord₂, rfl, rfl, .inl hi, hrun⟩
  | cancel t' ht hidle hs =>
    obtain ⟨-, heq⟩ := List.append_inj' hrecord₂ rfl
    cases heq
    exact ⟨x₁, _, hx₁, hx₂, rfl, hrecord₂, rfl, rfl, .inr rfl, hrun⟩
  | consume now' ht hidle h =>
    have hlength := congrArg List.length hrecord₂
    simp at hlength

/-- A run of all of it is a run of the informer. -/
theorem Run.loop (hrun : Run y x) (hy : y.Consistent config) : Loop.Run y.loop x.loop := by
  suffices x.Consistent config ∧ Loop.Run y.loop x.loop from this.2
  induction hrun with
  | refl => exact ⟨hy, .refl⟩
  | tail _ hstep ih =>
    obtain ⟨hconsistent, hloop⟩ := ih
    refine ⟨hconsistent.step hstep, ?_⟩
    cases hstep with
    | carry hp _ => exact hloop.tail (.carry hp)
    | take t i hp ht hi =>
      exact hloop.tail (.take t i hp (Nat.le_trans hconsistent.now_le ht) hi)
    | cancel t ht _ hs => exact hloop.tail (.cancel t (Nat.le_trans hconsistent.now_le ht) hs)
    | consume => exact hloop

/-- What has room is carried out before time passes, unless the informer is cancelled. -/
theorem Run.next_of_room (hrun : Run y x) (hroom : y.isIdle = false) :
    x.record = y.record ∧ x.clock = y.clock ∧ x.isIdle = false ∨
      ∃ e since, x.record = y.record ++ e :: since ∧
        (e.1 = y.clock ∨ ∃ t phase, e.2 = .took t phase .cancelled) := by
  induction hrun with
  | refl => exact .inl ⟨rfl, rfl, hroom⟩
  | @tail x₁ x hrun hstep ih =>
    rcases ih with ⟨hrecord, hclock, hidle⟩ | ⟨e, since, hrecord, he⟩
    · cases hstep with
      | carry hp _ => exact .inr ⟨_, [], by rw [← hrecord]; rfl, .inl hclock⟩
      | take t i hp ht hi => simp [isIdle_of_pending_eq_nil hp] at hidle
      | cancel t ht _ hs => exact .inr ⟨_, [], by rw [← hrecord]; rfl, .inr ⟨t, _, rfl⟩⟩
      | @consume outlets now ht hwaits h =>
        refine .inl ⟨hrecord, (hwaits.resolve_right (by simp [hidle])).trans hclock, ?_⟩
        cases hp : x₁.loop.pending with
        | nil => simp [isIdle_of_pending_eq_nil hp] at hidle
        | cons out rest =>
          rw [← Bool.not_eq_true, isIdle_iff_full hp] at hidle
          rw [← Bool.not_eq_true,
            isIdle_iff_full (x := { x₁ with outlets := outlets, clock := now }) hp]
          exact fun hfull => hidle (h.full hfull)
    · rcases hstep.record with hsame | ⟨e', he'⟩
      · exact .inr ⟨e, since, hsame.trans hrecord, he⟩
      · exact .inr ⟨e, since ++ [e'], by rw [he', hrecord, List.append_assoc]; rfl, he⟩

/-- What has room is carried out at once. -/
theorem Run.prompt (hrun : Run y x) (hroom : y.isIdle = false) {now : Duration} {out : Output β}
    {since} (hrecord : x.record = y.record ++ (now, .carried out) :: since) : now = y.clock := by
  rcases hrun.next_of_room hroom with ⟨hsame, -, -⟩ | ⟨e, since', hrecord', he⟩
  · simp [hsame] at hrecord
  · obtain ⟨rfl, -⟩ := List.cons.inj (List.append_cancel_left (hrecord'.symm.trans hrecord))
    simpa using he

end Timed

/-! ### The list of a resync -/

/-- The object at place `n` of a resync has its turn at one time, and leaves at another. -/
def Leaves (since : List (Duration × Occurrence β)) (n : Nat) (o : Object β)
    (turn taken : Duration) : Prop :=
  ∃ s₁ t phase s₂, since = s₁ ++ (turn, .took t phase .pacedDue) ::
    (taken, .carried (.send o.route o)) :: s₂ ∧ turns (s₁.map Prod.snd) = n

/-- Objects leave one after the other: the first is gone before the next has its turn. -/
theorem Leaves.exists_between {since : List (Duration × Occurrence β)} {n m : Nat} {o p : Object β}
    {turn taken turn' taken' : Duration} (h : Leaves since n o turn taken)
    (h' : Leaves since m p turn' taken') (hnm : n < m) :
    ∃ s₁ t phase s₂ t' phase' s₃, since = (s₁ ++ (turn, .took t phase .pacedDue) ::
      (taken, .carried (.send o.route o)) :: s₂) ++ (turn', .took t' phase' .pacedDue) ::
        (taken', .carried (.send p.route p)) :: s₃ := by
  obtain ⟨s₁, t, phase, s₂, hsince, hn⟩ := h
  obtain ⟨s₁', t', phase', s₃, hsince', hm⟩ := h'
  rcases List.append_eq_append_iff.1 (hsince.symm.trans hsince') with
    ⟨between, rfl, hbetween⟩ | ⟨between, rfl, -⟩
  · match between, hbetween with
    | [], _ =>
      rw [List.append_nil] at hm
      omega
    | [e], hbetween => simp at hbetween
    | e :: e' :: s₂', hbetween =>
      simp only [List.cons_append, List.cons.injEq] at hbetween
      obtain ⟨rfl, rfl, -⟩ := hbetween
      exact ⟨s₁, t, phase, s₂', t', phase', s₃, hsince'⟩
  · rw [List.map_append, turns_append] at hn
    omega

namespace Timed

variable {config : Config} {x : Timed β}

/-- What becomes of the list of a resync, where `seen` is the history up to that list and `since` is
what was recorded after it. -/
structure HandsOut (config : Config) (list : ObjectList β) (seen : List (Occurrence β))
    (since : List (Duration × Occurrence β)) (x : Timed β) : Prop where
  /-- What had no turn yet still waits. -/
  queue : x.loop.machine.paced = list.items.drop (turns (since.map Prod.snd))
  /-- Every turn is that of the next object. It is sent then, unless it was superseded or the
  informer is cancelled. -/
  outcome : ∀ {s₁ turn t phase s₂}, since = s₁ ++ (turn, .took t phase .pacedDue) :: s₂ →
    ∃ o next more, list.items[turns (s₁.map Prod.snd)]? = some o ∧
      s₂.map Prod.snd ++ x.loop.pending.map .carried = next :: more ∧
        Outcome (seen ++ s₁.map Prod.snd) o (list.items.drop (turns (s₁.map Prod.snd) + 1)) next
  /-- Objects leave in the order of the list. -/
  ordered : ∀ {n o turn taken}, Leaves since n o turn taken → list.items[n]? = some o
  /-- An object leaves at its turn if there is room for it then. -/
  prompt : ∀ {n o turn taken}, Leaves since n o turn taken →
    ∃ y : Timed β, Reachable config y ∧ Run y x ∧ y.clock = turn ∧
      y.loop.pending = [.send o.route o] ∧ (y.isIdle = false → taken = turn)
  /-- The next turn comes after the object has left, and not before the pause is over. -/
  apart : ∀ {n m o p turn taken turn' taken'}, n < m → Leaves since n o turn taken →
    Leaves since m p turn' taken' →
      turn ≤ taken ∧ taken ≤ turn' ∧ turn + config.rateWait ≤ turn' ∧ turn' ≤ taken'
  /-- So a pause lies between two objects that leave, if the first left at its turn. -/
  spaced : ∀ {n m o p turn taken turn' taken'}, n < m → Leaves since n o turn taken →
    Leaves since m p turn' taken' → taken = turn → taken + config.rateWait ≤ taken'

section Resync

variable {before since : List (Duration × Occurrence β)} {at_ : Duration} {t : Instant}
  {rest : Rest} {list : ObjectList β} {n m : Nat} {o p : Object β}
  {turn taken turn' taken' : Duration} (hx : Reachable config x)
  (hrecord : x.record = before ++ (at_, .took t (.resyncing rest) (.listed (.ok list))) :: since)
  (hquiet : ∀ e ∈ since, ¬ e.2.Resyncs)

include hx hrecord

theorem past_of_record :
    x.loop.past = before.map Prod.snd ++ .took t (.resyncing rest) (.listed (.ok list)) ::
      since.map Prod.snd := by
  rw [← hx.consistent.past, hrecord, List.map_append, List.map_cons]

/-- There is a moment at which an object that leaves has its turn, and it leaves then if there is
room for it. -/
theorem leaves_at_turn (h : Leaves since n o turn taken) :
    ∃ y : Timed β, Reachable config y ∧ Run y x ∧ y.clock = turn ∧
      y.loop.pending = [.send o.route o] ∧ (y.isIdle = false → taken = turn) := by
  obtain ⟨s₁, t', phase, s₂, rfl, -⟩ := h
  rw [← List.cons_append, ← List.append_assoc] at hrecord
  obtain ⟨y₀, y, -, hy, -, hturn, rfl, hloop, hi, hrun⟩ := hx.exists_take hrecord
  have hafter : x.record = y.record ++ (taken, .carried (.send o.route o)) :: s₂ := by
    rw [hrecord, hturn, ← List.append_cons]
  refine ⟨y, hy, hrun, rfl, ?_, fun hroom => hrun.prompt hroom hafter⟩
  -- a turn has one output, and the object that leaves is what was carried out next
  have hawaits : y₀.loop.machine.Awaits t'.time .pacedDue := hi.resolve_right (by simp)
  obtain ⟨-, q, queue, -, hpaced, -⟩ := State.awaits_pacedDue hawaits
  obtain ⟨out, hout⟩ : ∃ out, y.loop.pending = [out] := by
    rw [hloop]
    rcases State.step_of_turn hawaits hpaced with ⟨-, houts, -⟩ | ⟨-, houts⟩
    · exact ⟨_, houts⟩
    · exact ⟨_, houts⟩
  obtain ⟨later, next, more, hpast, hnext, hcases⟩ :=
    Loop.exists_next (hrun.loop hy.consistent) hout
  have hlater : .carried (.send o.route o) :: s₂.map Prod.snd = later := by
    have hsnd := hx.consistent.past
    rw [hafter, List.map_append, hy.consistent.past, hpast] at hsnd
    exact List.append_cancel_left hsnd
  rw [← hlater] at hnext
  obtain ⟨rfl, -⟩ := List.cons.inj hnext
  rcases hcases with hcarried | ⟨t, phase, hcancelled⟩
  · cases hcarried
    exact hout
  · cases hcancelled

include hquiet

theorem outcome_of_turn {s₁ s₂ : List (Duration × Occurrence β)} {t' : Instant} {phase : Phase}
    (hsince : since = s₁ ++ (turn, .took t' phase .pacedDue) :: s₂) :
    ∃ o next more, list.items[turns (s₁.map Prod.snd)]? = some o ∧
      s₂.map Prod.snd ++ x.loop.pending.map .carried = next :: more ∧
        Outcome (before.map Prod.snd ++ [.took t (.resyncing rest) (.listed (.ok list))] ++
          s₁.map Prod.snd) o (list.items.drop (turns (s₁.map Prod.snd) + 1)) next := by
  subst hsince
  have hpast := past_of_record hx hrecord
  rw [List.map_append, List.map_cons] at hpast
  rw [List.append_assoc, List.singleton_append]
  refine Loop.outcome_of_turn hx.consistent.reachable hpast (List.forall_mem_map.2 ?_)
  exact fun e he => hquiet e (List.mem_append_left _ he)

/-- What leaves is the object whose turn it was. -/
theorem getElem?_of_leaves (h : Leaves since n o turn taken) : list.items[n]? = some o := by
  obtain ⟨s₁, t', phase, s₂, hsince, rfl⟩ := h
  obtain ⟨p, next, more, hp, hnext, hout⟩ := outcome_of_turn hx hrecord hquiet hsince
  obtain ⟨hnext, -⟩ := List.cons.inj hnext
  cases hout with
  | sent =>
    obtain ⟨-, rfl⟩ : _ ∧ o = p := by simpa using hnext
    exact hp
  | passedOver => cases hnext
  | cancelled => cases hnext

/-- The next turn comes after the object has left, and not before the pause is over. -/
theorem turns_apart (hnm : n < m) (h : Leaves since n o turn taken)
    (h' : Leaves since m p turn' taken') :
    turn ≤ taken ∧ taken ≤ turn' ∧ turn + config.rateWait ≤ turn' ∧ turn' ≤ taken' := by
  obtain ⟨s₁, t₁, phase₁, s₂, t₂, phase₂, s₃, rfl⟩ := h.exists_between h' hnm
  have hconsistent := hx.consistent
  have hturn : x.record = (before ++ (at_, .took t (.resyncing rest) (.listed (.ok list))) :: s₁) ++
      (turn, .took t₁ phase₁ .pacedDue) :: (taken, .carried (.send o.route o)) :: (s₂ ++
        (turn', .took t₂ phase₂ .pacedDue) :: (taken', .carried (.send p.route p)) :: s₃) := by
    rw [hrecord]
    simp
  have htaken := hturn.trans (List.append_cons ..)
  have hturn' := hrecord
  rw [← List.cons_append, ← List.append_assoc] at hturn'
  refine ⟨hconsistent.le hturn (List.mem_cons_self ..),
    hconsistent.le htaken (List.mem_append_right _ (List.mem_cons_self ..)), ?_,
    hconsistent.le hturn' (List.mem_cons_self ..)⟩
  rw [hconsistent.eq_time hturn, hconsistent.eq_time hturn']
  have hpast := past_of_record hx hrecord
  simp only [List.map_append, List.map_cons] at hpast
  have hlater : ∀ z ∈ (s₁ ++ (turn, .took t₁ phase₁ .pacedDue) ::
      (taken, .carried (.send o.route o)) :: s₂).map Prod.snd, ¬ z.Resyncs :=
    List.forall_mem_map.2 (List.forall_mem_append.1 hquiet).1
  rw [List.map_append] at hlater
  exact Loop.turns_apart hconsistent.reachable hpast hlater

/-- The list of a resync is handed out in order, one turn at a time, and completely: an object that
is not sent at its turn was superseded while it waited, or the informer is cancelled. A pause lies
between two turns. -/
theorem handsOut_of_resync :
    x.HandsOut config list
      (before.map Prod.snd ++ [.took t (.resyncing rest) (.listed (.ok list))]) since where
  queue :=
    hx.consistent.reachable.queue (past_of_record hx hrecord) (List.forall_mem_map.2 hquiet)
  outcome hsince := outcome_of_turn hx hrecord hquiet hsince
  ordered h := getElem?_of_leaves hx hrecord hquiet h
  prompt h := leaves_at_turn hx hrecord h
  apart hnm h h' := turns_apart hx hrecord hquiet hnm h h'
  spaced hnm h h' htaken := by
    obtain ⟨-, -, hpause, hlater⟩ := turns_apart hx hrecord hquiet hnm h h'
    rw [htaken]
    exact Nat.le_trans hpause hlater

end Resync

/-- Channels for two objects, and half a second between two turns. -/
def narrow : Config := { resync := .ofMillis 5000, rateWait := .ofMillis 500, capacity := 2 }

/-- Two objects. -/
def twoListed : ObjectList Unit := ⟨[sample "a" "1" false, sample "b" "1" false], "1"⟩

/-- They are listed and fill their channel. Nobody takes them until a resync lists them again. -/
def untaken : List (Move Unit) :=
  [.take (.ofMillis 0) (.listed (.ok twoListed)), .take (.ofMillis 0) (.opened (.ok ())),
    .take (.ofMillis 5000) .resyncDue]

/-- The turn of the first lasts a second, since the consumer takes nothing. Then the second has its
turn, and the consumer makes room for it as well. -/
def slowly : List (Move Unit) :=
  untaken ++ [.take (.ofMillis 5000) (.listed (.ok twoListed)), .take (.ofMillis 5000) .pacedDue,
    .receive (.ofMillis 6000) .update, .take (.ofMillis 6000) .pacedDue,
    .receive (.ofMillis 6000) .update]

/-- What is recorded of the two turns. -/
def heldUp : List (Duration × Occurrence Unit) :=
  [(.ofMillis 5000, .took (.ofMillis 5000) (.resting (.watching "1")) .pacedDue),
    (.ofMillis 6000, .carried (.send .update (sample "a" "1" false))),
    (.ofMillis 6000, .took (.ofMillis 6000) (.resting (.watching "1")) .pacedDue),
    (.ofMillis 6000, .carried (.send .update (sample "b" "1" false)))]

theorem reachable_slowly : Reachable narrow ((start narrow .zero).play slowly) := by
  refine Reachable.play ⟨.zero, .refl⟩ ⟨⟨rfl, ?_, ?_⟩, ⟨rfl, ?_, ?_⟩, ⟨rfl, ?_, ?_⟩, ⟨rfl, ?_, ?_⟩,
    ⟨rfl, ?_, ?_⟩, ⟨?_, rfl, rfl⟩, ⟨rfl, ?_, ?_⟩, ⟨?_, rfl, rfl⟩, trivial⟩
  · decide
  · exact .inl ⟨.seed, rfl⟩
  · decide
  · exact ⟨"1", rfl⟩
  · decide
  · exact ⟨.ofMillis 5000, .head _, by decide⟩
  · decide
  · exact .inr ⟨.watching "1", rfl⟩
  · decide
  · exact ⟨.ofMillis 5000, .tail _ (.head _), by decide⟩
  · decide
  · decide
  · exact ⟨.ofMillis 5500, .tail _ (.head _), by decide⟩
  · decide

theorem record_slowly : ((start narrow .zero).play slowly).record =
    ((start narrow .zero).play untaken).record ++
      (.ofMillis 5000, .took (.ofMillis 5000) (.resyncing (.watching "1"))
        (.listed (.ok twoListed))) :: heldUp := rfl

theorem quiet_heldUp : ∀ e ∈ heldUp, ¬ e.2.Resyncs := by
  simp [heldUp, Occurrence.Resyncs]

/-- Both objects are handed out, and nothing is left to hand out. -/
theorem handsOut_slowly :
    ((start narrow .zero).play slowly).HandsOut narrow twoListed
        (((start narrow .zero).play untaken).record.map Prod.snd ++
          [.took (.ofMillis 5000) (.resyncing (.watching "1")) (.listed (.ok twoListed))]) heldUp ∧
      ((start narrow .zero).play slowly).loop.machine.paced = [] := by
  have h := handsOut_of_resync reachable_slowly record_slowly quiet_heldUp
  exact ⟨h, h.queue⟩

/-- They leave at the same time, and the pause is half a second. -/
theorem sent_at_once :
    narrow.check = .ok narrow ∧ Reachable narrow ((start narrow .zero).play slowly) ∧
      ((start narrow .zero).play slowly).record =
        ((start narrow .zero).play untaken).record ++ (.ofMillis 5000,
          .took (.ofMillis 5000) (.resyncing (.watching "1")) (.listed (.ok twoListed))) :: heldUp ∧
      Leaves heldUp 0 (sample "a" "1" false) (.ofMillis 5000) (.ofMillis 6000) ∧
      Leaves heldUp 1 (sample "b" "1" false) (.ofMillis 6000) (.ofMillis 6000) ∧
      ¬ Duration.ofMillis 6000 + narrow.rateWait ≤ .ofMillis 6000 := by
  refine ⟨rfl, reachable_slowly, record_slowly, ?_, ?_, by decide⟩
  · exact ⟨[], .ofMillis 5000, .resting (.watching "1"), heldUp.drop 2, rfl, rfl⟩
  · exact ⟨heldUp.take 2, .ofMillis 6000, .resting (.watching "1"), [], rfl, rfl⟩

end Timed

end Reconciler
