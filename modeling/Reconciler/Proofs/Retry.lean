import Reconciler.Proofs.Retry.Record

/-!
# When a retried operation succeeds

A run of a retried operation is made of attempts, with notices, looks at the clock and sleeps around
them. Every attempt but the last fails in a way that may pass, and the result is that of the last.

Moreover an operation may be known to succeed exactly if one of its questions is answered in a
certain way. Retrying it keeps that: the attempts before the last failed, so none of their questions
was answered so, and nothing is asked between two attempts.

## Main definitions

* `Attempts` : a run made of attempts
* `Settled` : a question was answered in a certain way
* `SucceedsIff` : a program succeeds exactly if that happens

## Main results

* `attempts_of_retry`, `attempts_of_retryLogged` : what is retried is made of attempts
* `only_retryLogged`, `always_retryLogged` : what holds of every attempt holds of all of them
* `SucceedsIff.retryLogged` : retrying keeps when an operation succeeds
-/

namespace Reconciler

open Program

variable {I : Interface} {α : Type} {Q : (q : I.Request) → I.Reply q → Prop}

/-! ### Attempts -/

/-- A run is made of attempts at an operation, with acts that have the property `P` around them.
Every attempt but the last fails in a way that may pass, and the last one decides. -/
inductive Attempts (P : Act I → Prop) (operation : Program I (Except Error α)) :
    List (Act I) → Except Error α → Prop where
  /-- An attempt succeeds. -/
  | succeeded {before during : List (Act I)} {a : α} (hbefore : ∀ act ∈ before, P act)
      (h : Runs operation during (some (.ok a))) : Attempts P operation (before ++ during) (.ok a)
  /-- An attempt fails, and there is no other. -/
  | failed {before during after : List (Act I)} {e : Error} (hbefore : ∀ act ∈ before, P act)
      (h : Runs operation during (some (.error e))) (hafter : ∀ act ∈ after, P act) :
      Attempts P operation (before ++ (during ++ after)) (.error e)
  /-- An attempt fails, and another is made. -/
  | again {before during rest : List (Act I)} {e : Error} {x : Except Error α}
      (hbefore : ∀ act ∈ before, P act) (h : Runs operation during (some (.error e)))
      (he : e.isRetryable = true) (hrest : Attempts P operation rest x) :
      Attempts P operation (before ++ (during ++ rest)) x

namespace Attempts

variable {P : Act I → Prop} {operation : Program I (Except Error α)}

theorem preceded {as : List (Act I)} {x : Except Error α} (h : Attempts P operation as x)
    {acts : List (Act I)} (hacts : ∀ act ∈ acts, P act) : Attempts P operation (acts ++ as) x := by
  have hboth {before : List (Act I)} (hbefore : ∀ act ∈ before, P act) :
      ∀ act ∈ acts ++ before, P act := by
    intro act hact
    exact (List.mem_append.1 hact).elim (hacts act) (hbefore act)
  cases h with
  | succeeded hbefore h =>
    rw [← List.append_assoc]
    exact .succeeded (hboth hbefore) h
  | failed hbefore h hafter =>
    rw [← List.append_assoc]
    exact .failed (hboth hbefore) h hafter
  | again hbefore h he hrest =>
    rw [← List.append_assoc]
    exact .again (hboth hbefore) h he hrest

/-- After the last failure there may be more acts of the kind. -/
theorem followed {as : List (Act I)} {e : Error} (h : Attempts P operation as (.error e))
    {acts : List (Act I)} (hacts : ∀ act ∈ acts, P act) :
    Attempts P operation (as ++ acts) (.error e) := by
  generalize hx : (.error e : Except Error α) = x at h
  induction h with
  | succeeded => cases hx
  | failed hbefore h hafter =>
    cases hx
    rw [List.append_assoc, List.append_assoc]
    refine .failed hbefore h fun act hact => ?_
    exact (List.mem_append.1 hact).elim (hafter act) (hacts act)
  | again hbefore h he _ ih =>
    rw [List.append_assoc, List.append_assoc]
    exact .again hbefore h he (ih hx)

/-- If an attempt succeeds then it is the last thing that happens. -/
theorem exists_suffix {as : List (Act I)} {a : α} (h : Attempts P operation as (.ok a)) :
    ∃ before during, as = before ++ during ∧ Runs operation during (some (.ok a)) := by
  generalize hx : (.ok a : Except Error α) = x at h
  induction h with
  | succeeded hbefore h =>
    cases hx
    exact ⟨_, _, rfl, h⟩
  | failed => cases hx
  | @again before during rest e x hbefore h he _ ih =>
    obtain ⟨before', during', rfl, hlast⟩ := ih hx
    exact ⟨before ++ (during ++ before'), during', by simp, hlast⟩

/-- What every attempt ensures, and every act around it, all of them ensure. -/
theorem ensured {T : List (Act I) → Prop} (hT : Accrues T) (hoperation : Ensures T operation)
    {as : List (Act I)} {x : Except Error α} (h : Attempts (fun a => T [a]) operation as x) :
    T as := by
  induction h with
  | succeeded hbefore hruns => exact hT.append (hT.of_forall hbefore) (hoperation _ _ hruns)
  | failed hbefore hruns hafter =>
    exact hT.append (hT.of_forall hbefore) (hT.append (hoperation _ _ hruns) (hT.of_forall hafter))
  | again hbefore hruns _ _ ih =>
    exact hT.append (hT.of_forall hbefore) (hT.append (hoperation _ _ hruns) ih)

end Attempts

section

variable {P : Act I → Prop} {operation : Program I (Except Error α)}

/-- A retry loop that comes to an end is made of attempts: those of its record. Between them stand
its notices, looks at the clock and sleeps. -/
theorem attempts_of_retryLoop (hlooked : ∀ m, P (.looked m)) (hslept : ∀ d, P (.slept d))
    {notify : UInt32 → Error → Duration → Program I Unit}
    (hnotify : ∀ attempt e delay, Only P (notify attempt e delay)) {n : Nat} {cursor : Backoff}
    {attempt : UInt32} {as : List (Act I)} {x : Except Error α}
    (h : Runs (retryLoop operation notify n cursor attempt) as (some x)) :
    Attempts P operation as x := by
  obtain ⟨c, hc, rfl, rfl⟩ := exists_record_of_retryLoop h
  clear h
  obtain ⟨rounds, last, x, refusal⟩ := c
  have hnone : ∀ act ∈ ([] : List (Act I)), P act := by simp
  induction rounds generalizing n cursor attempt with
  | nil =>
    cases x with
    | ok a =>
      obtain rfl : refusal = none := by simpa using hc.refused
      have hlast := Attempts.succeeded hnone hc.last
      simpa [RetryRecord.acts] using hlast
    | error e =>
      have hafter : ∀ act ∈ (refusal.map Act.looked).toList, P act := by
        cases refusal with
        | none => simp
        | some m => simpa using hlooked m
      exact .failed hnone hc.last hafter
  | cons r rounds ih =>
    obtain ⟨n, rfl⟩ := Nat.exists_eq_succ_of_ne_zero (Nat.ne_of_gt (Nat.zero_lt_of_lt hc.inSight))
    obtain ⟨⟨hcall, he⟩, hnotice, -, hrest⟩ :=
      (RetryRecord.follows_cons (c := ⟨rounds, last, x, refusal⟩)).1 hc
    have hbetween : ∀ act ∈ .looked r.moment ::
        (r.notice ++ if r.delay.isZero then [] else [.slept r.delay]), P act := by
      refine List.forall_mem_cons.2 ⟨hlooked _, List.forall_mem_append.2 ⟨?_, ?_⟩⟩
      · exact hnotify attempt r.error r.delay r.notice _ hnotice
      · split
        · exact hnone
        · simpa using hslept r.delay
    have hagain := Attempts.again hnone hcall he ((ih hrest).preceded hbetween)
    simpa [RetryRecord.acts, Round.acts] using hagain

/-- So is an operation that is retried. -/
theorem attempts_of_retry (hlooked : ∀ m, P (.looked m)) (hslept : ∀ d, P (.slept d))
    {policy : RetryPolicy} {notify : UInt32 → Error → Duration → Program I Unit}
    (hnotify : ∀ attempt e delay, Only P (notify attempt e delay)) {as : List (Act I)}
    {x : Except Error α} (h : Runs (retry policy notify operation) as (some x)) :
    Attempts P operation as x := by
  obtain ⟨m, as, rfl, hloop⟩ := h.of_moment
  have hlook : ∀ act ∈ [.looked m], P act := by simpa using hlooked m
  exact (attempts_of_retryLoop hlooked hslept hnotify hloop).preceded hlook

/-- And so is one that is retried with notices in the log. -/
theorem attempts_of_retryLogged (hlooked : ∀ m, P (.looked m)) (hslept : ∀ d, P (.slept d))
    (hlogged : ∀ entry, P (.signalled (.log entry))) {policy : RetryPolicy} {name : String}
    {as : List (Act I)} {x : Except Error α}
    (h : Runs (retryLogged policy name operation) as (some x)) : Attempts P operation as x := by
  have hlog (e : LogEvent) : Only P (Program.log e : Program I Unit) :=
    only_signal (hlogged _) (only_done _)
  obtain ⟨y, as₁, as₂, rfl, hfirst, hrest⟩ := h.complete_of_bind
  have hattempts := attempts_of_retry hlooked hslept (fun _ _ _ => hlog _) hfirst
  cases y with
  | ok a =>
    obtain ⟨rfl, hx⟩ := hrest.of_done
    obtain rfl : x = .ok a := by simpa using hx
    rwa [List.append_nil]
  | error e =>
    obtain ⟨_, gaveUp, acts, rfl, hgaveUp, hrest⟩ := hrest.complete_of_bind
    obtain ⟨rfl, hx⟩ := hrest.of_done
    obtain rfl : x = .error e := by simpa using hx
    rw [List.append_nil]
    exact hattempts.followed (hlog _ gaveUp _ hgaveUp)

/-- An operation that is retried with notices in the log and succeeds does so in its last
attempt. -/
theorem runs_of_retryLogged_ok {policy : RetryPolicy} {name : String} {as : List (Act I)} {a : α}
    (h : Runs (retryLogged policy name operation) as (some (.ok a))) :
    ∃ before during, as = before ++ during ∧ Runs operation during (some (.ok a)) :=
  (attempts_of_retryLogged (P := fun _ => True) (fun _ => trivial) (fun _ => trivial)
    (fun _ => trivial) h).exists_suffix

end

/-! ### What holds of every attempt -/

section

variable {P : Act I → Prop} {operation : Program I (Except Error α)}

/-- If every act of an operation has a property then so has every act of the loop. -/
theorem only_retryLoop (hlooked : ∀ m, P (.looked m)) (hslept : ∀ d, P (.slept d))
    (h : Only P operation) {notify : UInt32 → Error → Duration → Program I Unit}
    (hnotify : ∀ attempt e delay, Only P (notify attempt e delay)) (n : Nat) (cursor : Backoff)
    (attempt : UInt32) : Only P (retryLoop operation notify n cursor attempt) := by
  induction n generalizing cursor attempt with
  | zero => exact only_unfinished
  | succ n ih =>
    refine h.bind fun x => ?_
    cases x with
    | ok a => exact only_done _
    | error e =>
      refine only_ite (only_moment hlooked fun m => ?_) (only_done _)
      split
      · exact only_done _
      · refine (hnotify attempt e _).bind fun _ => ?_
        exact only_ite (ih _ _) (only_sleep (hslept _) (ih _ _))

theorem only_retryLogged (hlooked : ∀ m, P (.looked m)) (hslept : ∀ d, P (.slept d))
    (hlogged : ∀ entry, P (.signalled (.log entry))) (h : Only P operation) (policy : RetryPolicy)
    (name : String) : Only P (retryLogged policy name operation) := by
  have hlog (e : LogEvent) : Only P (Program.log e : Program I Unit) :=
    only_signal (hlogged _) (only_done _)
  refine Only.bind (only_moment hlooked fun m => ?_) fun x => ?_
  · exact only_retryLoop hlooked hslept h (fun _ _ _ => hlog _) _ _ _
  · cases x with
    | ok a => exact only_done _
    | error e => exact (hlog _).bind fun _ => only_done _

end

/-- What holds of every run of the operation holds of every run of the loop. -/
theorem always_retryLoop {T : List (Act I) → Prop} (hT : Composable T)
    {operation : Program I (Except Error α)} (h : Always T operation)
    {notify : UInt32 → Error → Duration → Program I Unit}
    (hnotify : ∀ attempt e delay, Always T (notify attempt e delay)) (n : Nat) (cursor : Backoff)
    (attempt : UInt32) : Always T (retryLoop operation notify n cursor attempt) := by
  induction n generalizing cursor attempt with
  | zero => exact .of_step hT (by simp [retryLoop]) (by rintro a p' ⟨⟩)
  | succ n ih =>
    refine h.bind hT fun x => ?_
    cases x with
    | ok a => exact .done hT _
    | error e =>
      dsimp only
      split
      case isFalse => exact .done hT _
      refine .moment hT fun m => ?_
      split
      · exact .done hT _
      · refine (hnotify attempt e _).bind hT fun _ => ?_
        split
        · exact ih _ _
        · exact .sleep hT _ (ih _ _)

theorem always_retryLogged {T : List (Act I) → Prop} (hT : Composable T)
    {operation : Program I (Except Error α)} (h : Always T operation) (policy : RetryPolicy)
    (name : String) : Always T (retryLogged policy name operation) := by
  have hlog (e : LogEvent) : Always T (Program.log e : Program I Unit) :=
    .signal hT _ (.done hT ())
  refine Always.bind hT (.moment hT fun m => ?_) fun x => ?_
  · exact always_retryLoop hT h (fun attempt e delay => hlog _) _ _ _
  · cases x with
    | ok a => exact .done hT _
    | error e => exact (hlog _).bind hT fun _ => .done hT _

/-! ### The question that settles the matter -/

/-- A question was answered in the way that `Q` says. -/
def Settled (Q : (q : I.Request) → I.Reply q → Prop) (as : List (Act I)) : Prop :=
  ∃ q rep, .asked q rep ∈ as ∧ Q q rep

@[simp] theorem not_settled_nil : ¬ Settled Q [] := by
  rintro ⟨q, rep, hmem, -⟩
  cases hmem

theorem settled_append {as bs : List (Act I)} :
    Settled Q (as ++ bs) ↔ Settled Q as ∨ Settled Q bs := by
  simp only [Settled, List.mem_append, or_and_right, exists_or]

theorem settled_cons {a : Act I} {as : List (Act I)} :
    Settled Q (a :: as) ↔ Settled Q [a] ∨ Settled Q as := by
  rw [← List.singleton_append, settled_append]

@[simp] theorem settled_asked {q : I.Request} {rep : I.Reply q} :
    Settled Q [.asked q rep] ↔ Q q rep := by
  constructor
  · rintro ⟨q', rep', hmem, h⟩
    cases List.mem_singleton.1 hmem
    exact h
  · intro h
    exact ⟨q, rep, List.mem_singleton.2 rfl, h⟩

@[simp] theorem not_settled_signalled (s : Signal) : ¬ Settled Q [.signalled s] := by
  simp [Settled]

@[simp] theorem not_settled_slept (d : Duration) : ¬ Settled Q [.slept d] := by
  simp [Settled]

@[simp] theorem not_settled_looked (m : Moment) : ¬ Settled Q [.looked m] := by
  simp [Settled]

theorem not_settled_of_forall {as : List (Act I)} (h : ∀ a ∈ as, ¬ Settled Q [a]) :
    ¬ Settled Q as := by
  rintro ⟨q, rep, hmem, hq⟩
  exact h _ hmem (settled_asked.2 hq)

/-- Whenever the program ends, it has succeeded exactly if a question was answered in the way that
`Q` says. -/
def SucceedsIff (Q : (q : I.Request) → I.Reply q → Prop) (p : Program I (Except Error α)) : Prop :=
  ∀ as x, Runs p as (some x) → ((∃ a, x = .ok a) ↔ Settled Q as)

namespace SucceedsIff

theorem congr {Q' : (q : I.Request) → I.Reply q → Prop} {p : Program I (Except Error α)}
    (h : SucceedsIff Q p) (hQ : ∀ q rep, Q q rep ↔ Q' q rep) : SucceedsIff Q' p := by
  intro as x hruns
  rw [h as x hruns]
  simp only [Settled, hQ]

theorem failed (e : Error) : SucceedsIff Q (.done (.error e) : Program I (Except Error α)) := by
  intro as x hruns
  obtain ⟨rfl, hx⟩ := hruns.of_done
  obtain rfl : x = .error e := by simpa using hx
  simp

/-- A question that is answered in that way must be followed by a success, and one that is not
decides nothing. -/
theorem ask {q : I.Request} {next : I.Reply q → Program I (Except Error α)}
    (hyes : ∀ rep, Q q rep → ∀ as x, Runs (next rep) as (some x) → ∃ a, x = .ok a)
    (hno : ∀ rep, ¬ Q q rep → SucceedsIff Q (next rep)) : SucceedsIff Q (.ask q next) := by
  intro as x hruns
  obtain ⟨rep, as', rfl, hrest⟩ := hruns.of_ask
  rw [settled_cons, settled_asked]
  by_cases hq : Q q rep
  · exact iff_of_true (hyes rep hq as' x hrest) (.inl hq)
  · rw [or_iff_right hq]
    exact hno rep hq as' x hrest

/-- What is made of attempts has succeeded exactly if the last of them has, and none of the others
was answered in that way. -/
theorem attempts {operation : Program I (Except Error α)} (h : SucceedsIff Q operation)
    {as : List (Act I)} {x : Except Error α}
    (hattempts : Attempts (fun a => ¬ Settled Q [a]) operation as x) :
    (∃ a, x = .ok a) ↔ Settled Q as := by
  induction hattempts with
  | succeeded hbefore hruns =>
    rw [settled_append, or_iff_right (not_settled_of_forall hbefore)]
    exact h _ _ hruns
  | failed hbefore hruns hafter =>
    rw [settled_append, settled_append, or_iff_right (not_settled_of_forall hbefore),
      or_iff_left (not_settled_of_forall hafter)]
    exact h _ _ hruns
  | again hbefore hruns _ _ ih =>
    have hfailed : ¬ Settled Q _ := mt (h _ _ hruns).2 (by simp)
    rw [settled_append, settled_append, or_iff_right (not_settled_of_forall hbefore),
      or_iff_right hfailed]
    exact ih

/-- Retrying, with notices in the log, keeps when an operation succeeds. -/
theorem retryLogged {operation : Program I (Except Error α)} (h : SucceedsIff Q operation)
    (policy : RetryPolicy) (name : String) :
    SucceedsIff Q (retryLogged policy name operation) := fun _ _ hruns =>
  h.attempts (attempts_of_retryLogged not_settled_looked not_settled_slept
    (fun _ => not_settled_signalled _) hruns)

end SucceedsIff

end Reconciler
