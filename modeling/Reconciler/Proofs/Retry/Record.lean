import Reconciler.Proofs.Backoff
import Reconciler.Proofs.Program.Completion
import Reconciler.Retry

/-!
# The record of a retried operation

Whatever a retried operation does, its run can be written down as a number of rounds and a last
call. In a round the operation is called and fails in a way that may pass, a delay is drawn from the
policy, the failure is notified, and the delay is slept through. The last call decides the result. A
draw follows it exactly if it failed in a way that may pass, and then the policy has nothing left to
yield; after any other call nothing is drawn.

The delays are those that the policy yields from its start, one after the other, at the moments at
which they were drawn. A record can be written of every run that comes to its end, and whatever can
be written down so is a run.

## Main definitions

* `IsSetback` : a failure after which trying again may help
* `Round`, `RetryRecord` : a failed call with what follows it, and a whole run
* `RetryRecord.Follows` : the record is one of a retry loop

## Main results

* `runs_retryLoop_iff` : the runs of a retry loop are those that have a record
* `retry_recorded` : the same for a retried operation, with and without notices in the log
-/

namespace Reconciler

open Program

variable {I : Interface} {α : Type}

/-- A failure after which trying again may help. -/
def IsSetback (r : Except Error α) : Prop := ∃ e, r = .error e ∧ e.isRetryable = true

@[simp] theorem not_isSetback_ok (a : α) : ¬ IsSetback (.ok a : Except Error α) := by
  rintro ⟨e, ⟨⟩, -⟩

@[simp] theorem isSetback_error (e : Error) :
    IsSetback (.error e : Except Error α) ↔ e.isRetryable = true := by
  constructor
  · rintro ⟨e, ⟨⟩, he⟩
    exact he
  · intro he
    exact ⟨e, rfl, he⟩

instance : DecidablePred (IsSetback : Except Error α → Prop)
  | .ok a => .isFalse (not_isSetback_ok a)
  | .error e => decidable_of_iff _ (isSetback_error e).symm

/-- A call that fails and is followed by another one. -/
structure Round (I : Interface) where
  /-- What happens in the call. -/
  during : List (Act I)
  /-- What it fails with. -/
  error : Error
  /-- When a delay is drawn. -/
  moment : Moment
  /-- The delay. -/
  delay : Duration
  /-- What happens while the failure is notified. -/
  notice : List (Act I)

/-- What happens in a round. No time is slept through if there is no delay. -/
def Round.acts (r : Round I) : List (Act I) :=
  r.during ++ .looked r.moment :: (r.notice ++ if r.delay.isZero then [] else [.slept r.delay])

/-- A run of a retry loop. -/
structure RetryRecord (I : Interface) (α : Type) where
  /-- The calls that were followed by another one. -/
  rounds : List (Round I)
  /-- What happened in the last call. -/
  last : List (Act I)
  /-- What the last call came to. -/
  result : Except Error α
  /-- When a delay was asked for after it, if at all. -/
  refusal : Option Moment

namespace RetryRecord

/-- What happened in the run. -/
def acts (c : RetryRecord I α) : List (Act I) :=
  c.rounds.flatMap Round.acts ++ (c.last ++ (c.refusal.map Act.looked).toList)

/-- The moments of the draws. -/
def moments (c : RetryRecord I α) : List Moment := c.rounds.map Round.moment ++ c.refusal.toList

/-- What the draws yielded: the delays, and nothing after the last call. -/
def yields (c : RetryRecord I α) : List (Option Duration) :=
  c.rounds.map (fun r => some r.delay) ++ (c.refusal.map fun _ => none).toList

/-- The record is one of the retry loop over at most `n` more attempts, the next of which has a
number. -/
structure Follows (operation : Program I (Except Error α))
    (notify : UInt32 → Error → Duration → Program I Unit) (n : Nat) (cursor : Backoff)
    (attempt : UInt32) (c : RetryRecord I α) : Prop where
  /-- In each round the operation fails in a way that may pass. -/
  calls : ∀ r ∈ c.rounds, Runs operation r.during (some (.error r.error)) ∧
    r.error.isRetryable = true
  /-- Each round is notified, with its number, its error and its delay. -/
  notices : ∀ i r, c.rounds[i]? = some r →
    Runs (notify (attempt + .ofNat i) r.error r.delay) r.notice (some ())
  /-- The last call decides. -/
  last : Runs operation c.last (some c.result)
  /-- The draws yield what the cursor yields at their moments. -/
  draws : cursor.draws c.moments = c.yields
  /-- There is a draw after the last call exactly if it failed in a way that may pass. -/
  refused : c.refusal.isSome = true ↔ IsSetback c.result
  /-- The calls are within the horizon. -/
  inSight : c.rounds.length < n

variable {operation : Program I (Except Error α)}
  {notify : UInt32 → Error → Duration → Program I Unit} {n : Nat} {cursor : Backoff}
  {attempt : UInt32}

/-- One call only. -/
theorem follows_single {last : List (Act I)} {x : Except Error α} {refusal : Option Moment}
    (hlast : Runs operation last (some x))
    (hdraws : ∀ m, refusal = some m → (cursor.next m).1 = none)
    (hrefused : refusal.isSome = true ↔ IsSetback x) :
    Follows operation notify (n + 1) cursor attempt ⟨[], last, x, refusal⟩ where
  calls := by simp
  notices := by simp
  last := hlast
  draws := by
    cases refusal with
    | none => rfl
    | some m => simp [moments, yields, Backoff.draws, hdraws m rfl]
  refused := hrefused
  inSight := Nat.succ_pos n

/-- The numbers of later attempts count on from that of the next, and wrap around as it does. -/
theorem add_ofNat_succ (attempt : UInt32) (i : Nat) :
    attempt + 1 + .ofNat i = attempt + .ofNat (i + 1) := by
  rw [UInt32.add_assoc, UInt32.ofNat_add, UInt32.add_comm (.ofNat i) (.ofNat 1)]
  rfl

theorem add_ofNat_zero (attempt : UInt32) : attempt + .ofNat 0 = attempt := UInt32.add_zero attempt

/-- One round more, before the others. -/
theorem follows_cons {r : Round I} {c : RetryRecord I α} :
    Follows operation notify (n + 1) cursor attempt { c with rounds := r :: c.rounds } ↔
      (Runs operation r.during (some (.error r.error)) ∧ r.error.isRetryable = true) ∧
        Runs (notify attempt r.error r.delay) r.notice (some ()) ∧
        (cursor.next r.moment).1 = some r.delay ∧
        Follows operation notify n (cursor.next r.moment).2 (attempt + 1) c := by
  constructor
  · intro h
    have hdraws := h.draws
    rw [show moments _ = r.moment :: c.moments from rfl,
      show yields _ = some r.delay :: c.yields from rfl, Backoff.draws, List.cons.injEq] at hdraws
    have hcalls := List.forall_mem_cons.1 h.calls
    have hfirst := h.notices 0 r rfl
    rw [add_ofNat_zero] at hfirst
    refine ⟨hcalls.1, hfirst, hdraws.1, hcalls.2, ?_, h.last, hdraws.2, h.refused, ?_⟩
    · intro i r' hr'
      have hnotice := h.notices (i + 1) r' hr'
      rwa [← add_ofNat_succ] at hnotice
    · exact Nat.lt_of_succ_lt_succ h.inSight
  · rintro ⟨hcall, hnotice, hdelay, h⟩
    refine ⟨List.forall_mem_cons.2 ⟨hcall, h.calls⟩, ?_, h.last, ?_, h.refused,
      Nat.succ_lt_succ h.inSight⟩
    · rintro (_ | i) r' hr'
      · cases hr'
        rwa [add_ofNat_zero]
      · rw [← add_ofNat_succ]
        exact h.notices i r' hr'
    · rw [show moments _ = r.moment :: c.moments from rfl,
        show yields _ = some r.delay :: c.yields from rfl, Backoff.draws, hdelay, h.draws]

theorem acts_cons (r : Round I) (c : RetryRecord I α) :
    acts { c with rounds := r :: c.rounds } = r.acts ++ c.acts := by
  rw [acts, acts, List.flatMap_cons, List.append_assoc]

end RetryRecord

/-! ### Runs of a retry loop -/

section

open RetryRecord

variable {operation : Program I (Except Error α)}
  {notify : UInt32 → Error → Duration → Program I Unit} {n : Nat} {cursor : Backoff}
  {attempt : UInt32}

/-- The loop ends after a call that is followed by no other. -/
theorem runs_retryLoop_single {last : List (Act I)} {x : Except Error α} {refusal : Option Moment}
    (h : Follows operation notify (n + 1) cursor attempt ⟨[], last, x, refusal⟩) :
    Runs (retryLoop operation notify (n + 1) cursor attempt)
      (last ++ (refusal.map Act.looked).toList) (some x) := by
  refine h.last.bind ?_
  have hrefused : refusal.isSome = true ↔ IsSetback x := h.refused
  cases x with
  | ok a =>
    obtain rfl : refusal = none := by simpa using hrefused
    exact .done _
  | error e =>
    rw [isSetback_error] at hrefused
    cases refusal with
    | none =>
      have hfinal : e.isRetryable = false := by simpa using hrefused
      simp only [hfinal, Bool.false_eq_true, if_false]
      exact .done _
    | some m =>
      have hretryable : e.isRetryable = true := by simpa using hrefused
      have hnone : (cursor.next m).1 = none := by
        simpa [moments, yields, Backoff.draws] using h.draws
      simp only [hretryable, if_true]
      refine .step (.moment m _) ?_
      rcases hnext : cursor.next m with ⟨_ | delay, rest⟩
      · exact .done _
      · simp [hnext] at hnone

/-- The loop goes on after a round. -/
theorem runs_retryLoop_round {r : Round I}
    (hcall : Runs operation r.during (some (.error r.error))) (he : r.error.isRetryable = true)
    (hnotice : Runs (notify attempt r.error r.delay) r.notice (some ()))
    (hdelay : (cursor.next r.moment).1 = some r.delay) {as : List (Act I)} {x : Except Error α}
    (hrest : Runs (retryLoop operation notify n (cursor.next r.moment).2 (attempt + 1)) as
      (some x)) :
    Runs (retryLoop operation notify (n + 1) cursor attempt) (r.acts ++ as) (some x) := by
  rw [Round.acts, List.append_assoc, List.cons_append, List.append_assoc]
  refine hcall.bind ?_
  simp only [he, if_true]
  refine .step (.moment r.moment _) ?_
  rcases hnext : cursor.next r.moment with ⟨_ | delay, rest⟩
  · simp [hnext] at hdelay
  · obtain rfl : delay = r.delay := by simpa [hnext] using hdelay
    rw [hnext] at hrest
    refine hnotice.bind ?_
    split
    · exact hrest
    · exact .step (.sleep _ _) hrest

/-- What a record tells is a run. -/
theorem RetryRecord.Follows.runs {c : RetryRecord I α}
    (h : Follows operation notify n cursor attempt c) :
    Runs (retryLoop operation notify n cursor attempt) c.acts (some c.result) := by
  obtain ⟨rounds, last, x, refusal⟩ := c
  -- The cursor and the number of the next attempt move on with every round.
  induction rounds generalizing n cursor attempt with
  | nil =>
    obtain ⟨n, rfl⟩ := Nat.exists_eq_succ_of_ne_zero (Nat.ne_of_gt h.inSight)
    exact runs_retryLoop_single h
  | cons r rounds ih =>
    obtain ⟨n, rfl⟩ := Nat.exists_eq_succ_of_ne_zero (Nat.ne_of_gt (Nat.zero_lt_of_lt h.inSight))
    obtain ⟨⟨hcall, he⟩, hnotice, hdelay, hrest⟩ :=
      (follows_cons (c := ⟨rounds, last, x, refusal⟩)).1 h
    have hloop := runs_retryLoop_round hcall he hnotice hdelay (ih hrest)
    rwa [← acts_cons] at hloop

/-- A run of the loop that comes to its end has a record. -/
theorem exists_record_of_retryLoop {as : List (Act I)} {x : Except Error α}
    (h : Runs (retryLoop operation notify n cursor attempt) as (some x)) :
    ∃ c : RetryRecord I α, c.Follows operation notify n cursor attempt ∧ c.result = x ∧
      c.acts = as := by
  induction n generalizing cursor attempt as with
  | zero => cases h with | step hs => cases hs
  | succ n ih =>
    obtain ⟨y, during, after, rfl, hcall, hrest⟩ := h.complete_of_bind
    cases y with
    | ok a =>
      obtain ⟨rfl, hx⟩ := hrest.of_done
      obtain rfl : x = .ok a := by simpa using hx
      exact ⟨⟨[], during, .ok a, none⟩, follows_single hcall (by simp) (by simp), rfl,
        by simp [acts]⟩
    | error e =>
      dsimp only at hrest
      split at hrest
      case isFalse he =>
        obtain ⟨rfl, hx⟩ := hrest.of_done
        obtain rfl : x = .error e := by simpa using hx
        exact ⟨⟨[], during, .error e, none⟩, follows_single hcall (by simp) (by simpa using he),
          rfl, by simp [acts]⟩
      case isTrue he =>
        obtain ⟨m, acts', rfl, hdrawn⟩ := hrest.of_moment
        split at hdrawn
        case h_1 rest hnext =>
          obtain ⟨rfl, hx⟩ := hdrawn.of_done
          obtain rfl : x = .error e := by simpa using hx
          have hnone : ∀ m', some m = some m' → (cursor.next m').1 = none := by
            rintro m' ⟨⟩
            rw [hnext]
          exact ⟨⟨[], during, .error e, some m⟩, follows_single hcall hnone (by simpa using he),
            rfl, by simp [acts]⟩
        case h_2 delay rest hnext =>
          obtain ⟨_, noticed, acts', rfl, hnoticed, hwaited⟩ := hdrawn.complete_of_bind
          -- what is left after the wait is a run of the loop from the next attempt on
          obtain ⟨later, hacts, hloop⟩ : ∃ later,
              acts' = (if delay.isZero then [] else [.slept delay]) ++ later ∧
                Runs (retryLoop operation notify n rest (attempt + 1)) later (some x) := by
            split at hwaited
            case isTrue hzero => exact ⟨acts', by rw [if_pos hzero, List.nil_append], hwaited⟩
            case isFalse hzero =>
              obtain ⟨later, rfl, hwoken⟩ := hwaited.of_sleep
              exact ⟨later, by rw [if_neg hzero, List.singleton_append], hwoken⟩
          obtain ⟨c, hc, rfl, rfl⟩ := ih hloop
          have hfollows : Follows operation notify (n + 1) cursor attempt
              { c with rounds := ⟨during, e, m, delay, noticed⟩ :: c.rounds } := by
            refine follows_cons.2 ⟨⟨hcall, he⟩, hnoticed, by rw [hnext], ?_⟩
            rw [hnext]
            exact hc
          refine ⟨_, hfollows, rfl, ?_⟩
          rw [acts_cons, hacts]
          simp [Round.acts]

/-- The runs of a retry loop that come to their end are those that have a record. -/
theorem runs_retryLoop_iff {as : List (Act I)} {x : Except Error α} :
    Runs (retryLoop operation notify n cursor attempt) as (some x) ↔
      ∃ c : RetryRecord I α, c.Follows operation notify n cursor attempt ∧ c.result = x ∧
        c.acts = as := by
  constructor
  · exact exists_record_of_retryLoop
  · rintro ⟨c, hc, rfl, rfl⟩
    exact hc.runs

/-- A retried operation looks at the clock once, to start the policy, and goes into its loop. -/
theorem runs_retry_iff {policy : RetryPolicy} {as : List (Act I)} {x : Except Error α} :
    Runs (retry policy notify operation) as (some x) ↔ ∃ start, ∃ c : RetryRecord I α,
      c.Follows operation notify policy.horizon (policy.cursor start.wall) 1 ∧ c.result = x ∧
        .looked start :: c.acts = as := by
  constructor
  · intro h
    obtain ⟨start, acts', rfl, hloop⟩ := h.of_moment
    obtain ⟨c, hc, hx, rfl⟩ := runs_retryLoop_iff.1 hloop
    exact ⟨start, c, hc, hx, rfl⟩
  · rintro ⟨start, c, hc, hx, rfl⟩
    exact .step (.moment start _) (runs_retryLoop_iff.2 ⟨c, hc, hx, rfl⟩)

end

/-! ### What a record says about the calls -/

namespace RetryRecord

variable {operation : Program I (Except Error α)}
  {notify : UInt32 → Error → Duration → Program I Unit} {n : Nat} {cursor : Backoff}
  {attempt : UInt32} {c : RetryRecord I α}

/-- If notices ask nothing then only the calls ask something. -/
theorem dialogue_acts (h : ∀ r ∈ c.rounds, dialogue r.notice = []) :
    dialogue c.acts = (c.rounds.flatMap fun r => dialogue r.during) ++ dialogue c.last := by
  obtain ⟨rounds, last, x, refusal⟩ := c
  induction rounds with
  | nil =>
    cases refusal with
    | none => simp [acts]
    | some m => simp [acts]
  | cons r rounds ih =>
    obtain ⟨hnotice, hrest⟩ := List.forall_mem_cons.1 h
    have hround : dialogue r.acts = dialogue r.during := by
      rw [Round.acts, dialogue_append, dialogue_cons_looked, dialogue_append, hnotice]
      split
      · exact List.append_nil _
      · exact List.append_nil _
    have hacts := acts_cons r ⟨rounds, last, x, refusal⟩
    rw [hacts, dialogue_append, hround, ih hrest, List.flatMap_cons, List.append_assoc]

/-- The draws of the rounds, and the one after the last call. -/
theorem Follows.draws_rounds (h : c.Follows operation notify n cursor attempt) :
    cursor.draws (c.rounds.map Round.moment) = c.rounds.map (fun r => some r.delay) ∧
      (cursor.after (c.rounds.map Round.moment)).draws c.refusal.toList =
        (c.refusal.map fun _ => none).toList := by
  have hdraws := h.draws
  rw [moments, yields, Backoff.draws_append] at hdraws
  exact List.append_inj hdraws (by simp)

theorem Follows.isSome_of_mem (h : c.Follows operation notify n cursor attempt) :
    ∀ o ∈ cursor.draws (c.rounds.map Round.moment), o.isSome = true := by
  rw [h.draws_rounds.1]
  simp

/-- There are no more rounds than the policy allows. -/
theorem Follows.length_rounds_le {b : Backoff} {wall : Duration}
    (h : c.Follows operation notify n (b.reset wall) attempt) : (c.rounds.length : ℕ∞) ≤ b.cap := by
  simpa using Backoff.length_le_cap h.isSome_of_mem

/-- If the last call is a setback as well then there are as many rounds as the policy allows. -/
theorem Follows.length_rounds_eq {k : ℕ∞} (h : c.Follows operation notify n cursor attempt)
    (hcursor : cursor.Allows k) (hx : IsSetback c.result) : (c.rounds.length : ℕ∞) = k := by
  obtain ⟨m, hm⟩ := Option.isSome_iff_exists.1 (h.refused.2 hx)
  have hrefused := h.draws_rounds.2
  rw [hm] at hrefused
  have hnone : ((cursor.after (c.rounds.map Round.moment)).next m).1 = none := by
    simpa [Backoff.draws] using hrefused
  have hle := hcursor.length_le h.isSome_of_mem
  have hnot := mt (hcursor (c.rounds.map Round.moment) m).2 (by simp [hnone])
  rw [List.length_map] at hle hnot
  exact le_antisymm hle (not_lt.1 hnot)

end RetryRecord

/-! ### Notices in the log -/

/-- The entry for a failure that is retried. -/
def warned (name : String) (attempt : UInt32) (e : Error) (delay : Duration) : Act I :=
  .signalled (.log ⟨.operationRetried name attempt e delay, none⟩)

/-- The entry for a failure that is given up on. -/
def abandoned (name : String) : Except Error α → List (Act I)
  | .ok _ => []
  | .error e => [.signalled (.log ⟨.operationAbandoned name e, none⟩)]

theorem runs_log_iff {e : LogEvent} {as : List (Act I)} :
    Runs (Program.log e) as (some ()) ↔ as = [.signalled (.log ⟨e, none⟩)] := by
  constructor
  · exact runs_log
  · rintro rfl
    exact .step (.signal _ _) (.done ())

/-- With notices in the log a retried operation does what it does otherwise, and logs at the end
that it gives up, if it does. -/
theorem runs_retryLogged_iff {policy : RetryPolicy} {name : String}
    {operation : Program I (Except Error α)} {as : List (Act I)} {x : Except Error α} :
    Runs (retryLogged policy name operation) as (some x) ↔ ∃ before,
      Runs (retry policy (fun attempt e delay => .log (.operationRetried name attempt e delay))
        operation) before (some x) ∧ before ++ abandoned name x = as := by
  constructor
  · intro h
    obtain ⟨y, before, after, rfl, hretried, hrest⟩ := h.complete_of_bind
    cases y with
    | ok a =>
      obtain ⟨rfl, hx⟩ := hrest.of_done
      obtain rfl : x = .ok a := by simpa using hx
      exact ⟨before, hretried, rfl⟩
    | error e =>
      obtain ⟨_, logged, after, rfl, hlogged, hend⟩ := hrest.complete_of_bind
      obtain ⟨rfl, hx⟩ := hend.of_done
      obtain rfl : x = .error e := by simpa using hx
      exact ⟨before, hretried, by rw [runs_log hlogged]; rfl⟩
  · rintro ⟨before, hretried, rfl⟩
    refine hretried.bind ?_
    cases x with
    | ok a => exact .done _
    | error e => exact (runs_log_iff.2 rfl).bind (.done _)

/-- Every run of a retried operation that comes to its end has a record, and every record of it is a
run: so many rounds as there are notifications, each with a call that failed in a way that may pass
and with the next delay that the policy yields from its start, and a last call, which succeeds, or
fails for good, or fails when the policy has nothing left to yield.

With notices in the log it is the same, where the notification of a round is one warning with its
number, and giving up is one error at the end. -/
theorem retry_recorded (policy : RetryPolicy) (operation : Program I (Except Error α)) :
    (∀ notify as x, Runs (retry policy notify operation) as (some x) ↔
      ∃ start, ∃ c : RetryRecord I α,
        c.Follows operation notify policy.horizon (policy.cursor start.wall) 1 ∧ c.result = x ∧
          .looked start :: c.acts = as) ∧
      ∀ name as x, Runs (retryLogged policy name operation) as (some x) ↔
        ∃ start, ∃ c : RetryRecord I α,
          c.Follows operation (fun attempt e delay => .log (.operationRetried name attempt e delay))
              policy.horizon (policy.cursor start.wall) 1 ∧
            (∀ i r, c.rounds[i]? = some r →
              r.notice = [warned name (1 + .ofNat i) r.error r.delay]) ∧
            c.result = x ∧ .looked start :: c.acts ++ abandoned name x = as := by
  refine ⟨fun notify as x => runs_retry_iff, fun name as x => ?_⟩
  rw [runs_retryLogged_iff]
  constructor
  · rintro ⟨before, hretried, rfl⟩
    obtain ⟨start, c, hc, hx, rfl⟩ := runs_retry_iff.1 hretried
    exact ⟨start, c, hc, fun i r hr => runs_log (hc.notices i r hr), hx, rfl⟩
  · rintro ⟨start, c, hc, -, hx, rfl⟩
    exact ⟨_, runs_retry_iff.2 ⟨start, c, hc, hx, rfl⟩, rfl⟩

end Reconciler
