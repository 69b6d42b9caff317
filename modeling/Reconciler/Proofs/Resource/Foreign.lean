import Reconciler.Proofs.Resource.Accounting
import Reconciler.Proofs.Retry.Record

/-!
# Foreign payloads

A CRUD resource is called with payloads, and a payload may hold something that is not of a type the
resource owns. Then the call is refused before the resource itself is called, by an error that names
the first wrong payload. The check stands beneath all layers that are spliced into the calls. What
the layers do about it is what they do about any error that is final: it is logged and counted once
by each layer that logs or counts, and a retry layer passes it on after the first attempt, without a
draw from its policy.

A call whose payloads are all of the right types is the call of the typed resource.

## Main definitions

* `Call.arguments`, `Call.wrong?` : the payloads of a call, and the first one of a wrong type
* `Call.Holds` : the payloads of a call are those of a typed call
* `Refusal` : what happens in layers while a call is refused
* `Refused` : a call that is refused, and nothing comes of it

## Main results

* `RetryRecord.Follows.once` : what always fails for good is tried once
* `refused_refusal` : a final error beneath any layers
* `Registry.Decorated.refuses_foreign` : any call through any layers
-/

namespace Reconciler

open Program

variable {I : Interface} {K S C P ι α β : Type}

/-! ### The payloads of a call -/

/-- A payload, as a typed resource is handed it. -/
structure Argument where
  /-- What it is called in messages. -/
  label : String
  /-- What the type is called that the resource owns. -/
  typeName : String
  /-- It is of that type. -/
  fits : Bool

/-- The error that refuses it. -/
def Argument.mismatch (resource : String) (a : Argument) : Error :=
  .typeMismatch resource (a.label ++ " is not a " ++ a.typeName)

theorem Argument.not_isRetryable_mismatch (resource : String) (a : Argument) :
    (a.mismatch resource).isRetryable = false := rfl

section Payloads

variable (state : Embedding P S) (change : Embedding P C)

/-- The payloads of a call, in the order in which they are looked at. -/
def Call.arguments : Call P P → List Argument
  | .getCurrent => []
  | .getDesired => []
  | .newPatch _ current desired =>
    [⟨"current state", state.typeName, (state.project? current).isSome⟩,
      ⟨"desired state", state.typeName, (state.project? desired).isSome⟩]
  | .apply slot payload =>
    [⟨Ops.changeLabel slot, change.typeName, (change.project? payload).isSome⟩]

/-- The first payload that is of a wrong type. -/
def Call.wrong? (call : Call P P) : Option Argument :=
  (call.arguments state change).find? fun a => !a.fits

/-- The payloads of the call are those of a typed call, and the answer to that, converted, is an
answer to the call. -/
inductive Call.Holds : (call : Call P P) → (c : Call S C) → (c.Reply → call.Reply) → Prop where
  /-- Nothing is handed over, and a state is answered. -/
  | getCurrent : Holds .getCurrent .getCurrent state.inject
  /-- The same. -/
  | getDesired : Holds .getDesired .getDesired state.inject
  /-- Two states are handed over, and a patch is answered. -/
  | newPatch (pass : Pass) {current desired : P} {current' desired' : S}
      (hcurrent : state.project? current = some current')
      (hdesired : state.project? desired = some desired') :
      Holds (.newPatch pass current desired) (.newPatch pass current' desired')
        (Patch.map change.inject)
  /-- A change is handed over. -/
  | apply (slot : Slot) {payload : P} {c : C} (hpayload : change.project? payload = some c) :
      Holds (.apply slot payload) (.apply slot c) id

variable {state change}

theorem Call.Holds.operation_eq {call : Call P P} {c : Call S C} {f : c.Reply → call.Reply}
    (h : Call.Holds state change call c f) : call.operation = c.operation := by
  cases h with
  | getCurrent => rfl
  | getDesired => rfl
  | newPatch pass => cases pass <;> rfl
  | apply slot => cases slot <;> rfl

/-- A call has a payload of a wrong type, or holds a typed call. -/
theorem Call.exists_holds {call : Call P P} (h : call.wrong? state change = none) :
    ∃ (c : Call S C) (f : c.Reply → call.Reply), Call.Holds state change call c f := by
  cases call with
  | getCurrent => exact ⟨_, _, .getCurrent⟩
  | getDesired => exact ⟨_, _, .getDesired⟩
  | newPatch pass current desired =>
    have hboth : (state.project? current).isSome ∧ (state.project? desired).isSome := by
      simpa [wrong?, arguments] using h
    obtain ⟨current', hcurrent⟩ := Option.isSome_iff_exists.1 hboth.1
    obtain ⟨desired', hdesired⟩ := Option.isSome_iff_exists.1 hboth.2
    exact ⟨_, _, .newPatch pass hcurrent hdesired⟩
  | apply slot payload =>
    have hfits : change.project? payload ≠ none := by simpa [wrong?, arguments] using h
    obtain ⟨c, hpayload⟩ := Option.ne_none_iff_exists'.1 hfits
    exact ⟨_, _, .apply slot hpayload⟩

namespace Ops

variable (ops : Ops I K S C)

/-- The first wrong payload is an error, whatever the resource would have done. -/
theorem perform_erase_of_wrong {call : Call P P} {a : Argument}
    (h : call.wrong? state change = some a) (k : K) :
    (ops.erase state change).perform call k = .done (.error (a.mismatch ops.name)) := by
  cases call with
  | getCurrent => cases h
  | getDesired => cases h
  | newPatch pass current desired =>
    rw [Call.wrong?, Call.arguments] at h
    cases hcurrent : state.project? current with
    | none =>
      obtain rfl := by simpa [hcurrent] using h
      simp only [erase, hcurrent]
      rfl
    | some current' =>
      cases hdesired : state.project? desired with
      | none =>
        obtain rfl := by simpa [hcurrent, hdesired] using h
        simp only [erase, hcurrent, hdesired]
        rfl
      | some desired' => simp [hcurrent, hdesired] at h
  | apply slot payload =>
    rw [Call.wrong?, Call.arguments] at h
    cases hpayload : change.project? payload with
    | none =>
      obtain rfl := by simpa [hpayload] using h
      simp only [erase, hpayload]
      rfl
    | some c => simp [hpayload] at h

/-- Without a wrong payload it is the typed call. -/
theorem perform_erase_of_holds {call : Call P P} {c : Call S C} {f : c.Reply → call.Reply}
    (h : Call.Holds state change call c f) (k : K) :
    (ops.erase state change).perform call k = (ops.perform c k).mapOk f := by
  cases h with
  | getCurrent => exact andThen_eq_mapOk _ _
  | getDesired => exact andThen_eq_mapOk _ _
  | newPatch pass hcurrent hdesired =>
    simp only [erase, hcurrent, hdesired]
    exact andThen_eq_mapOk _ _
  | apply slot hpayload =>
    simp only [erase, hpayload]
    exact (andThen_ok _).symm.trans (andThen_eq_mapOk _ _)

end Ops

end Payloads

/-! ### A final error in layers -/

/-- Beneath layers around a call of an operation is an error, and nothing else. -/
def refusal (ds : List Decorator) (resource : String) (op : Operation) (e : Error) :
    Program I (Except Error α) :=
  ds.foldr (fun d p => d.around resource op p) (.done (.error e))

/-- What happens in layers around a call of an operation while it is refused: each logs, counts or
looks at the clock once, as if it had been alone. -/
inductive Refusal (resource : String) (op : Operation) (e : Error) :
    List Decorator → List (Act I) → Prop where
  /-- No layer, and nothing happens. -/
  | nil : Refusal resource op e [] []
  /-- The start of the call and its failure are logged. -/
  | logging {ds : List Decorator} {as : List (Act I)} (h : Refusal resource op e ds as) :
      Refusal resource op e (.logging :: ds)
        ([.signalled (.log ⟨.callStarted resource op, none⟩)] ++
          (as ++ [.signalled (.log ⟨.callFailed resource op e, none⟩)]))
  /-- The clock is read to start the policy, and there is one attempt. -/
  | retry (policy : RetryPolicy) (start : Moment) {ds : List Decorator} {as : List (Act I)}
      (h : Refusal resource op e ds as) :
      Refusal resource op e (.retry policy :: ds) (.looked start :: as)
  /-- The call is counted, timed, and counted as a failure. -/
  | metrics (handle : OperationMetrics) {ds : List Decorator} {as : List (Act I)}
      (h : Refusal resource op e ds as) :
      Refusal resource op e (.metrics handle :: ds)
        (recordings (handle.begun resource op.label) ++
          (as ++ recordings (handle.ended resource op.label false)))

/-- An operation that always fails for good is called once, and nothing is drawn from the policy. -/
theorem RetryRecord.Follows.once {operation : Program I (Except Error α)}
    {notify : UInt32 → Error → Duration → Program I Unit} {n : Nat} {cursor : Backoff}
    {attempt : UInt32} {c : RetryRecord I α} (h : c.Follows operation notify n cursor attempt)
    {e : Error} (he : e.isRetryable = false)
    (hfinal : ∀ as x, Runs operation as (some x) → x = .error e) :
    c.rounds = [] ∧ c.refusal = none := by
  constructor
  · refine List.eq_nil_iff_forall_not_mem.2 fun r hr => ?_
    obtain ⟨hcall, hretryable⟩ := h.calls r hr
    obtain rfl : r.error = e := Except.error.inj (hfinal _ _ hcall)
    exact Bool.false_ne_true (he.symm.trans hretryable)
  · refine Option.not_isSome_iff_eq_none.1 fun hsome => ?_
    have hsetback := h.refused.1 hsome
    rw [hfinal _ _ h.last, isSetback_error] at hsetback
    exact Bool.false_ne_true (he.symm.trans hsetback)

/-! ### A value that is watched -/

section Watched

variable {a : α} {p : Program I α}

theorem Program.Observed.bind_of_done (h : Observed (.done a) p) {f : α → Program I β}
    {q : Program I β} (hf : f a = q) : Observed q (p.bind f) := by
  subst hf
  exact h.bind (f := f) fun a => .refl (f a)

/-- It comes to the value. -/
theorem Program.Observed.run_of_done (h : Observed (.done a) p) {σ : Type} (env : Surroundings I σ)
    (s : σ) : (p.run env s).1 = some a := by
  generalize hq : (.done a : Program I α) = q at h
  induction h generalizing s with
  | done b => rw [Program.run, Program.done.inj hq]
  | extraSignal e _ ih => exact ih _ hq
  | extraMoment _ ih => exact ih _ _ hq
  | _ => cases hq

/-- Nothing is left behind but what comes of looking at the clock and taking note of signals. -/
theorem Program.Observed.view_of_done (h : Observed (.done a) p) {σ τ : Type}
    (env : Surroundings I σ) (view : σ → τ) (hmoment : ∀ s, view (env.moment s).2 = view s)
    (hobserve : ∀ e s, view (env.observe e s) = view s) (s : σ) :
    view (p.run env s).2 = view s := by
  generalize hq : (.done a : Program I α) = q at h
  induction h generalizing s with
  | done b => rfl
  | extraSignal e _ ih => exact (ih _ hq).trans (hobserve e s)
  | extraMoment _ ih => exact (ih _ _ hq).trans (hmoment s)
  | _ => cases hq

/-- Nothing is asked, and nothing is waited for. -/
theorem Program.Observed.talk_eq_nil (h : Observed (.done a) p) {as : List (Act I)} {r : Option α}
    (hruns : Runs p as r) : talk as = [] := by
  obtain ⟨as', hdone, htalk⟩ := (h.converses_iff _ r).1 ⟨as, hruns, rfl⟩
  rw [hdone.of_done.1] at htalk
  exact htalk.symm

end Watched

/-! ### What the layers do -/

section Layers

variable {ds : List Decorator} {resource : String} {op : Operation} {e : Error}
  {as : List (Act I)} {x : Except Error α}

/-- However the layers are stacked, the call comes to the error and each layer does its part. -/
theorem runs_refusal (he : e.isRetryable = false)
    (h : Runs (refusal ds resource op e) as (some x)) :
    x = .error e ∧ Refusal resource op e ds as := by
  induction ds generalizing as x with
  | nil =>
    obtain ⟨rfl, hx⟩ := h.of_done
    exact ⟨by simpa using hx, .nil⟩
  | cons d ds ih =>
    cases d with
    | logging =>
      obtain ⟨during, rfl, hduring⟩ := Decorator.runs_logging h
      obtain ⟨rfl, hrefusal⟩ := ih hduring
      exact ⟨rfl, .logging hrefusal⟩
    | retry policy =>
      -- Every attempt comes to the error, so the record of the loop has a last call and no rounds.
      obtain ⟨start, c, hc, rfl, rfl⟩ := runs_retry_iff.1 h
      obtain ⟨hrounds, hrefused⟩ := hc.once he fun _ _ hattempt => (ih hattempt).1
      obtain ⟨hresult, hrefusal⟩ := ih hc.last
      rw [RetryRecord.acts, hrounds, hrefused]
      refine ⟨hresult, .retry policy start ?_⟩
      simpa using hrefusal
    | metrics handle =>
      obtain ⟨during, rfl, hduring⟩ := Decorator.runs_metrics h
      obtain ⟨rfl, hrefusal⟩ := ih hduring
      exact ⟨rfl, .metrics handle hrefusal⟩

/-- Whoever runs it cannot tell it from the error. -/
theorem observed_refusal (he : e.isRetryable = false)
    (hds : ∀ policy, .retry policy ∈ ds → 0 < policy.horizon) :
    Observed (.done (.error e)) (refusal ds resource op e : Program I (Except Error α)) := by
  induction ds with
  | nil => exact .done _
  | cons d ds ih =>
    have ih := ih fun policy hpolicy => hds policy (List.mem_cons_of_mem d hpolicy)
    cases d with
    | logging =>
      have hlogging : Decorator.logging.IsObserver := trivial
      exact hlogging.around ih _ _
    | retry policy =>
      -- This policy may well retry, but not after this error.
      refine .extraMoment fun m => ?_
      obtain ⟨n, hn⟩ := Nat.exists_eq_add_of_lt (hds policy List.mem_cons_self)
      rw [hn, Nat.zero_add, retryLoop]
      refine ih.bind_of_done ?_
      simp only [he, Bool.false_eq_true, if_false]
    | metrics handle =>
      have hmetrics : (Decorator.metrics handle).IsObserver := trivial
      exact hmetrics.around ih _ _

/-- The notes that would be made of the call: it comes back from every layer with the error. -/
def refusals (resource : String) (op : Operation) (e : Error) : List Decorator → List Visit
  | [] => []
  | d :: ds => ⟨d :: ds, resource, op, some e⟩ :: refusals resource op e ds

/-- A layer records what it records of any call that comes back from it with the error. -/
theorem Refusal.value_measured (h : Refusal resource op e ds as) (m : Measurement) :
    Metrics.value (measured as) m =
      Metrics.value ((refusals resource op e ds).flatMap Visit.recorded) m := by
  induction h with
  | nil => rfl
  | logging _ ih =>
    rw [measured_append, measured_append]
    exact (congrArg (Metrics.value · m) (List.append_nil _)).trans ih
  | retry policy start _ ih => exact ih
  | @metrics handle ds as _ ih =>
    have hrecorded : Visit.recorded ⟨.metrics handle :: ds, resource, op, some e⟩ =
        handle.begun resource op.label ++ handle.ended resource op.label false := rfl
    simp only [Metrics.value] at ih
    simp only [Metrics.value, measured_append, measured_recordings, refusals, List.flatMap_cons,
      hrecorded, List.count_append, ih]
    omega

theorem invocations_refusals (h : OperationMetrics) (resource' : String) (op' : Operation) :
    invocations h resource' op' (refusals resource op e ds) =
      if resource = resource' ∧ op = op' then ds.countP (·.Feeds h) else 0 := by
  induction ds with
  | nil => simp [refusals, invocations]
  | cons d ds ih =>
    rw [invocations] at ih ⊢
    rw [refusals, List.countP_cons, ih, List.countP_cons]
    by_cases hsame : resource = resource' ∧ op = op'
    · simp [hsame, Visit.Counts]
    · simp [hsame, Visit.Counts]

theorem failures_refusals (h : OperationMetrics) (resource' : String) (op' : Operation) :
    failures h resource' op' (refusals resource op e ds) =
      invocations h resource' op' (refusals resource op e ds) := by
  have hfailed : ∀ v ∈ refusals resource op e ds, v.error.isSome = true := by
    induction ds with
    | nil => simp [refusals]
    | cons d ds ih => exact List.forall_mem_cons.2 ⟨rfl, ih⟩
  refine List.countP_congr fun v hv => ?_
  simp [hfailed v hv]

end Layers

/-! ### Calls through layers -/

/-- A call of an operation on a resource is refused by an error through layers, and nothing comes of
it. -/
structure Refused (ds : List Decorator) (resource : String) (op : Operation) (e : Error)
    (p : Program I (Except Error α)) : Prop where
  /-- Beneath the layers is the error. The resource is not called. -/
  body : p = refusal ds resource op e
  /-- In any surroundings the call comes to the error, -/
  returns : ∀ {σ : Type} (env : Surroundings I σ) (s : σ), (p.run env s).1 = some (.error e)
  /-- and leaves behind what it found, unless that shows signals or looks at the clock. -/
  unchanged : ∀ {σ τ : Type} (env : Surroundings I σ) (view : σ → τ),
    (∀ s, view (env.moment s).2 = view s) → (∀ signal s, view (env.observe signal s) = view s) →
      ∀ s, view (p.run env s).2 = view s
  /-- At no time is anything asked or waited for. -/
  quiet : ∀ as r, Runs p as r → talk as = []
  /-- In the end each layer has done its part, once. -/
  acts : ∀ as x, Runs p as (some x) → x = .error e ∧ Refusal resource op e ds as
  /-- What a retry layer goes through is one attempt, and no draw from the policy. -/
  undrawn : ∀ above policy below, ds = above ++ .retry policy :: below →
    ∀ (start : Moment) (c : RetryRecord I α),
      c.Follows (refusal below resource op e)
          (fun attempt e delay => .log (.callRetried resource op attempt e delay)) policy.horizon
          (policy.cursor start.wall) 1 →
        c.rounds = [] ∧ c.moments = []
  /-- Each layer that uses a handle has counted one call of the operation, -/
  operations : ∀ as x, Runs p as (some x) → ∀ h resource' op',
    Metrics.value (measured as) (h.operationSeries resource' op') =
      if resource = resource' ∧ op = op' then ds.countP (·.Feeds h) else 0
  /-- one failure -/
  errors : ∀ as x, Runs p as (some x) → ∀ h resource' op',
    Metrics.value (measured as) (h.errorSeries resource' op') =
      if resource = resource' ∧ op = op' then ds.countP (·.Feeds h) else 0
  /-- and one time. -/
  durations : ∀ as x, Runs p as (some x) → ∀ h resource' op',
    Metrics.value (measured as) (h.durationSeries resource' op') =
      if resource = resource' ∧ op = op' then ds.countP (·.Feeds h) else 0

theorem refused_refusal {ds : List Decorator} {resource : String} {op : Operation} {e : Error}
    (he : e.isRetryable = false) (hds : ∀ policy, .retry policy ∈ ds → 0 < policy.horizon) :
    Refused ds resource op e (refusal ds resource op e : Program I (Except Error α)) where
  body := rfl
  returns env s := (observed_refusal he hds).run_of_done env s
  unchanged env view hmoment hobserve s :=
    (observed_refusal he hds).view_of_done env view hmoment hobserve s
  quiet _ _ h := (observed_refusal he hds).talk_eq_nil h
  acts _ _ h := runs_refusal he h
  undrawn above policy below _ start c hc := by
    obtain ⟨hrounds, hrefused⟩ := hc.once he fun _ _ h => (runs_refusal he h).1
    exact ⟨hrounds, by rw [RetryRecord.moments, hrounds, hrefused]; rfl⟩
  operations as x h handle resource' op' := by
    rw [(runs_refusal he h).2.value_measured, value_operationSeries, invocations_refusals]
  errors as x h handle resource' op' := by
    rw [(runs_refusal he h).2.value_measured, value_errorSeries, failures_refusals,
      invocations_refusals]
  durations as x h handle resource' op' := by
    rw [(runs_refusal he h).2.value_measured, value_durationSeries, invocations_refusals]

/-- Layers do not look at the value of a success. -/
theorem foldr_around_mapOk (ds : List Decorator) (resource : String) (op : Operation) (f : α → β)
    (p : Program I (Except Error α)) :
    ds.foldr (fun d p => d.around resource op p) (p.mapOk f) =
      (ds.foldr (fun d p => d.around resource op p) p).mapOk f := by
  induction ds with
  | nil => rfl
  | cons d ds ih => rw [List.foldr_cons, ih, Decorator.around_mapOk, List.foldr_cons]

/-- Converting the value of a success makes no failure and takes none away. -/
theorem runs_mapOk_error_iff {p : Program I (Except Error α)} {f : α → β} {as : List (Act I)}
    {e : Error} : Runs (p.mapOk f) as (some (.error e)) ↔ Runs p as (some (.error e)) := by
  constructor
  · intro h
    obtain ⟨x, as, _, rfl, hruns, hend⟩ := h.complete_of_bind
    obtain ⟨rfl, hx⟩ := hend.of_done
    cases x with
    | ok a => simp [Except.map] at hx
    | error e' =>
      obtain rfl : e = e' := by simpa [Except.map] using hx
      rwa [List.append_nil]
  · intro h
    rw [← List.append_nil as]
    exact h.bind (.done _)

/-- A typed resource may have any decorators spliced into its calls. If a payload of a call is of a
wrong type then the call is refused by an error that names the resource and the first such payload,
and nothing comes of it. Otherwise the call is the one that the payloads hold, through the same
decorators, with its answer converted; so it fails exactly when and with what that one fails. -/
theorem Registry.Decorated.refuses_foreign {reg : Registry I K P ι} {state : Embedding P S}
    {change : Embedding P C} {ops : Ops I K S C} {hname : ops.name ≠ ""} {ds : List Decorator}
    {r : Resource I K P ι}
    (h : reg.Decorated ⟨.crud ⟨ops.erase state change, hname⟩, ds, []⟩ r)
    (hds : ∀ policy, .retry policy ∈ ds → 0 < policy.horizon) :
    ∃ crud : Crud I K P, r = .crud crud ∧ ∀ (call : Call P P) (k : K),
      (∀ a, call.wrong? state change = some a →
        Refused ds ops.name call.operation (a.mismatch ops.name) (crud.ops.perform call k)) ∧
      (call.wrong? state change = none →
        ∃ (c : Call S C) (f : c.Reply → call.Reply), Call.Holds state change call c f ∧
          crud.ops.perform call k = ((ds.foldr Ops.decorate ops).perform c k).mapOk f ∧
          ∀ as e, Runs (crud.ops.perform call k) as (some (.error e)) ↔
            Runs ((ds.foldr Ops.decorate ops).perform c k) as (some (.error e))) := by
  obtain rfl := h.resource_eq
  refine ⟨_, rfl, fun call k => ⟨fun a ha => ?_, fun hall => ?_⟩⟩
  · have hperform := Ops.perform_foldr_decorate ds (ops.erase state change) call k
    rw [ops.perform_erase_of_wrong ha] at hperform
    rw [hperform]
    exact refused_refusal (a.not_isRetryable_mismatch ops.name) hds
  · obtain ⟨c, f, hholds⟩ := Call.exists_holds hall
    have hperform : (ds.foldr Ops.decorate (ops.erase state change)).perform call k =
        ((ds.foldr Ops.decorate ops).perform c k).mapOk f := by
      rw [Ops.perform_foldr_decorate, Ops.perform_foldr_decorate, hholds.operation_eq,
        ops.perform_erase_of_holds hholds, ← foldr_around_mapOk]
      rfl
    refine ⟨c, f, hholds, hperform, fun as e => ?_⟩
    rw [← runs_mapOk_error_iff (f := f), ← hperform]

namespace Registry

/-- A flag that is measured, retried and measured again is handed a state where a change should be,
and foreign payloads for both states. It names the change, and of the states the current one. It
stays as it is, and is counted as a failure on both sides of the retries. -/
theorem refuses_foreign_flag :
    ∃ crud : Crud flagpole Unit (Bool ⊕ Bool), flagStack.resource = .crud crud ∧
      (∀ up, (crud.ops.perform (.apply .update (.inl true)) ()).run flagSurroundings up =
        (some (.error (.typeMismatch "flag" "update change is not a Change")), up)) ∧
      (∀ up, (crud.ops.perform (.newPatch .delete (.inr true) (.inr true)) ()).run
          flagSurroundings up =
        (some (.error (.typeMismatch "flag" "current state is not a State")), up)) ∧
      ∀ as x, Runs (crud.ops.perform (.apply .update (.inl true)) ()) as (some x) →
        Metrics.value (measured as) (attemptsHandle.errorSeries "flag" .applyUpdateChange) = 1 ∧
          Metrics.value (measured as) (stepsHandle.errorSeries "flag" .applyUpdateChange) = 1 := by
  have hdecorated : flagRegistry.Decorated
      ⟨.crud ⟨flag.erase flagState flagChange, by decide⟩, flagStack.calls, []⟩
      flagStack.resource := decorated_flagStack
  obtain ⟨crud, hcrud, hcalls⟩ := hdecorated.refuses_foreign (by simp [flagStack])
  have hchange := (hcalls (.apply .update (.inl true)) ()).1 _ rfl
  have hpatch := (hcalls (.newPatch .delete (.inr true) (.inr true)) ()).1 _ rfl
  refine ⟨crud, hcrud, fun up => ?_, fun up => ?_, fun as x h => ⟨?_, ?_⟩⟩
  · exact Prod.ext (hchange.returns flagSurroundings up)
      (hchange.unchanged flagSurroundings id (fun _ => rfl) (fun _ _ => rfl) up)
  · exact Prod.ext (hpatch.returns flagSurroundings up)
      (hpatch.unchanged flagSurroundings id (fun _ => rfl) (fun _ _ => rfl) up)
  · exact (hchange.errors as x h attemptsHandle "flag" .applyUpdateChange).trans (by decide)
  · exact (hchange.errors as x h stepsHandle "flag" .applyUpdateChange).trans (by decide)

end Registry

end Reconciler
