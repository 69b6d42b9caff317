import Reconciler.Proofs.Resource.Layering
import Reconciler.Proofs.Resource.Layers
import Reconciler.Proofs.Telemetry.Series

/-!
# What metrics layers count

A metrics layer counts a call when it begins, times it when it ends, and counts it once more if it
failed. So after a number of completed passes the series of a handle tell how many calls came back
from the layers that use it, and how many of these failed, wherever in the stack the layers stand
and whatever stands between them. What the resource beneath the stack records by itself comes on
top.

How many calls a layer sees is a matter of the layers around it. Directly on the resource it sees
every attempt of every retry layer above. Outside of all retry layers it sees each step once, and
the step has failed only if the layers beneath gave up on it.

The notes of a run say which calls came back. Booking is an induction over the layers: every metrics
layer has recorded what the note of it says, and no other layer records anything.

## Main definitions

* `Visit.recorded` : what a layer has recorded for a call
* `Booked` : what was recorded is what the notes say
* `invocations`, `failures` : what the series of a handle should say
* `Stack.Accounts` : what they do say

## Main results

* `Stack.ensures_booked` : one pass
* `invocations_eq`, `failures_eq` : a handle that is used by one layer
* `Registry.Decorated.accounts` : any passes over a decorated resource
-/

namespace Reconciler

open Program

variable {I : Interface} {K S C P ι α : Type}

/-! ### The books of a stack -/

/-- What a layer has recorded when a call comes back from it. -/
def Visit.recorded (v : Visit) : List Measurement :=
  match v.layers with
  | .metrics handle :: _ =>
    handle.begun v.resource v.operation.label ++
      handle.ended v.resource v.operation.label v.error.isNone
  | _ => []

/-- The acts are those of some complete call of the resource itself. -/
def Registry.Performs (reg : Registry I K P ι) : Resource I K P ι → List (Act I) → Prop
  | .crud c, as => ∃ call k x, Runs (c.ops.perform call k) as (some x)
  | r, as => ∃ pass k x, Runs (reg.ensure pass r k) as (some x)

/-- Everything recorded was recorded by the layers that calls came back from, or else in the acts
beneath them, which are among those of the run. -/
structure Books (as : List (Act (noting I))) (beneath : List (List (Act I))) : Prop where
  sublist : beneath.flatten.Sublist (plain as)
  value : ∀ m, Metrics.value (measured as) m =
    Metrics.value ((visits as).flatMap Visit.recorded) m +
      Metrics.value (measured beneath.flatten) m

/-- A run has books, in which the acts beneath the layers are of a certain kind. -/
def Booked (Base : List (Act I) → Prop) (as : List (Act (noting I))) : Prop :=
  ∃ beneath, (∀ acts ∈ beneath, Base acts) ∧ Books as beneath

variable {Base : List (Act I) → Prop}

theorem accrues_booked : Accrues (Booked Base) where
  nil := ⟨[], by simp, List.Sublist.refl _, fun m => rfl⟩
  append := by
    rintro as bs ⟨beneath, hbase, has⟩ ⟨beneath', hbase', hbs⟩
    refine ⟨beneath ++ beneath', List.forall_mem_append.2 ⟨hbase, hbase'⟩, ?_, fun m => ?_⟩
    · rw [List.flatten_append, plain_append]
      exact has.sublist.append hbs.sublist
    · have has := has.value m
      have hbs := hbs.value m
      simp only [Metrics.value] at has hbs
      simp only [Metrics.value, measured_append, visits_append, List.flatMap_append,
        List.flatten_append, List.count_append, has, hbs]
      omega

/-- Without notes and recordings there is nothing to book. -/
theorem booked_of_idle {as : List (Act (noting I))} (hmeasured : measured as = [])
    (hvisits : (visits as).flatMap Visit.recorded = []) : Booked Base as := by
  refine ⟨[], by simp, List.nil_sublist _, fun m => ?_⟩
  rw [hmeasured, hvisits]
  rfl

/-- A call through a metrics layer is booked with the note of it. -/
theorem booked_metrics {handle : OperationMetrics} {ds : List Decorator} {resource : String}
    {op : Operation} {x : Except Error α} {during : List (Act (noting I))}
    (h : Booked Base during) :
    Booked Base (recordings (handle.begun resource op.label) ++
      (during ++ recordings (handle.ended resource op.label (Decorator.succeeded x))) ++
        [.asked (.inr ⟨.metrics handle :: ds, resource, op, error? x⟩) ()]) := by
  obtain ⟨beneath, hbase, hduring⟩ := h
  refine ⟨beneath, hbase, ?_, fun m => ?_⟩
  · refine hduring.sublist.trans ?_
    simp only [plain_append]
    exact ((List.sublist_append_left _ _).trans (List.sublist_append_right _ _)).trans
      (List.sublist_append_left _ _)
  · have hduring := hduring.value m
    have hnote : visits [(.asked (.inr ⟨.metrics handle :: ds, resource, op, error? x⟩) () :
        Act (noting I))] = [⟨.metrics handle :: ds, resource, op, error? x⟩] := rfl
    have hsilent : measured [(.asked (.inr ⟨.metrics handle :: ds, resource, op, error? x⟩) () :
        Act (noting I))] = [] := rfl
    have hsucceeded : (error? x).isNone = Decorator.succeeded x := by
      cases x with
      | ok a => rfl
      | error e => rfl
    simp only [Metrics.value] at hduring
    simp only [Metrics.value, measured_append, measured_recordings, visits_append,
      visits_recordings, hnote, hsilent, List.flatMap_append, List.flatMap_singleton,
      List.count_append, hduring, Visit.recorded, hsucceeded, List.flatMap_nil, List.count_nil]
    omega

theorem ensures_booked_through {resource : String} {op : Operation}
    {body : Program (noting I) (Except Error α)} (hbody : Ensures (Booked Base) body)
    (ds : List Decorator) : Ensures (Booked Base) (body.through resource op ds) := by
  induction ds with
  | nil =>
    intro as x h
    obtain ⟨before, rfl, hbefore⟩ := runs_reported h
    exact accrues_booked.append (hbody _ _ hbefore) (booked_of_idle rfl rfl)
  | cons d ds ih =>
    intro as x h
    obtain ⟨before, rfl, hbefore⟩ := runs_reported h
    have hlogged (entry : LogEntry) :
        Booked Base [(.signalled (.log entry) : Act (noting I))] := booked_of_idle rfl rfl
    -- Only a metrics layer records anything, and only then the note says so.
    cases d with
    | logging =>
      obtain ⟨during, rfl, hduring⟩ := Decorator.runs_logging hbefore
      refine accrues_booked.append ?_ (booked_of_idle rfl rfl)
      exact accrues_booked.append (hlogged _) (accrues_booked.append (ih _ _ hduring) (hlogged _))
    | retry policy =>
      refine accrues_booked.append ?_ (booked_of_idle rfl rfl)
      have hattempts := Decorator.attempts_retry (T := fun a => Booked Base [a])
        (fun _ _ _ => hlogged _) (fun _ => booked_of_idle rfl rfl) (fun _ => booked_of_idle rfl rfl)
        hbefore
      exact hattempts.ensured accrues_booked ih
    | metrics handle =>
      obtain ⟨during, rfl, hduring⟩ := Decorator.runs_metrics hbefore
      exact booked_metrics (ih _ _ hduring)

/-- What makes no notes is beneath the layers as a whole. -/
theorem ensures_booked_noteless {p : Program I α} (h : ∀ as a, Runs p as (some a) → Base as) :
    Ensures (Booked Base) p.noteless := by
  intro as a hruns
  obtain ⟨hvisits, hplain⟩ := runs_noteless hruns
  refine ⟨[plain as], by simpa using h _ a hplain, ?_, fun m => ?_⟩
  · rw [List.flatten_singleton]
  · rw [hvisits, List.flatten_singleton, measured_plain]
    exact (Nat.zero_add _).symm

theorem Stack.ensures_booked (s : Stack I K P ι) (reg : Registry I K P ι) (pass : Pass) (k : K) :
    Ensures (Booked (reg.Performs s.base)) (s.noted reg pass k) := by
  refine ensures_booked_through ?_ s.layers
  rcases s with ⟨i | ⟨d, inner⟩ | c, calls, layers⟩
  · exact ensures_booked_noteless fun as x h => ⟨pass, k, x, h⟩
  · exact ensures_booked_noteless fun as x h => ⟨pass, k, x, h⟩
  · refine Ops.ensures_reconcile accrues_booked (fun call => ?_) pass
    exact ensures_booked_through (ensures_booked_noteless fun as x h => ⟨call, k, x, h⟩) calls

/-! ### What is counted -/

/-- A layer that records on the series of a handle. -/
def Decorator.Feeds (h : OperationMetrics) : Decorator → Prop
  | .metrics h' => h'.Shares h
  | _ => False

instance (h : OperationMetrics) : DecidablePred (Decorator.Feeds h)
  | .metrics h' => inferInstanceAs (Decidable (h'.Shares h))
  | .logging => .isFalse id
  | .retry _ => .isFalse id

/-- The call came back from a layer that records on the series of a handle for an operation of a
resource. -/
def Visit.Counts (h : OperationMetrics) (resource : String) (op : Operation) (v : Visit) : Prop :=
  (∃ d ∈ v.layers.head?, d.Feeds h) ∧ v.resource = resource ∧ v.operation = op

instance (h : OperationMetrics) (resource : String) (op : Operation) :
    DecidablePred (Visit.Counts h resource op) :=
  fun v => inferInstanceAs (Decidable ((∃ d ∈ v.layers.head?, d.Feeds h) ∧ _ ∧ _))

/-- How often the operation of the resource was called through layers that use the handle. -/
def invocations (h : OperationMetrics) (resource : String) (op : Operation) (vs : List Visit) :
    Nat :=
  vs.countP fun v => v.Counts h resource op

/-- How many of these calls failed. -/
def failures (h : OperationMetrics) (resource : String) (op : Operation) (vs : List Visit) : Nat :=
  vs.countP fun v => v.Counts h resource op ∧ v.error.isSome

theorem count_flatMap {f : Visit → List Measurement} {m : Measurement} {p : Visit → Bool}
    (h : ∀ v, (f v).count m = if p v then 1 else 0) (vs : List Visit) :
    (vs.flatMap f).count m = vs.countP p := by
  induction vs with
  | nil => rfl
  | cons v vs ih =>
    rw [List.flatMap_cons, List.count_append, ih, h, List.countP_cons, Nat.add_comm]

/-- A metrics layer has recorded on its own series; any other layer has recorded nothing and uses no
handle. -/
theorem Visit.recorded_cases (v : Visit) :
    (v.recorded = [] ∧ ∀ h resource op, ¬ v.Counts h resource op) ∨
      ∃ h' : OperationMetrics,
        (∀ h resource op, v.Counts h resource op ↔
          h'.Shares h ∧ v.resource = resource ∧ v.operation = op) ∧
        v.recorded = h'.operationSeries v.resource v.operation ::
          h'.durationSeries v.resource v.operation ::
            if v.error.isNone then [] else [h'.errorSeries v.resource v.operation] := by
  rcases v with ⟨_ | ⟨_ | policy | h', ds⟩, resource, op, e⟩
  · exact .inl ⟨rfl, by simp [Counts]⟩
  · exact .inl ⟨rfl, by simp [Counts, Decorator.Feeds]⟩
  · exact .inl ⟨rfl, by simp [Counts, Decorator.Feeds]⟩
  · exact .inr ⟨h', by simp [Counts, Decorator.Feeds], rfl⟩

section Counts

open OperationMetrics

variable (h : OperationMetrics) (resource : String) (op : Operation) (vs : List Visit)

theorem value_operationSeries :
    Metrics.value (vs.flatMap Visit.recorded) (h.operationSeries resource op) =
      invocations h resource op vs := by
  refine count_flatMap (fun v => ?_) vs
  rcases v.recorded_cases with ⟨hnothing, hcounts⟩ | ⟨h', hcounts, hrecorded⟩
  · simp [hnothing, hcounts]
  · rw [hrecorded]
    cases v.error.isNone <;>
      simp [List.count_cons, hcounts, operationSeries_eq_iff, operationSeries_ne_errorSeries.symm,
        operationSeries_ne_durationSeries.symm]

theorem value_durationSeries :
    Metrics.value (vs.flatMap Visit.recorded) (h.durationSeries resource op) =
      invocations h resource op vs := by
  refine count_flatMap (fun v => ?_) vs
  rcases v.recorded_cases with ⟨hnothing, hcounts⟩ | ⟨h', hcounts, hrecorded⟩
  · simp [hnothing, hcounts]
  · rw [hrecorded]
    cases v.error.isNone <;>
      simp [List.count_cons, hcounts, durationSeries_eq_iff, errorSeries_ne_durationSeries,
        operationSeries_ne_durationSeries]

theorem value_errorSeries :
    Metrics.value (vs.flatMap Visit.recorded) (h.errorSeries resource op) =
      failures h resource op vs := by
  refine count_flatMap (fun v => ?_) vs
  rcases v.recorded_cases with ⟨hnothing, hcounts⟩ | ⟨h', hcounts, hrecorded⟩
  · simp [hnothing, hcounts]
  · rw [hrecorded]
    cases herror : v.error <;>
      simp [List.count_cons, hcounts, errorSeries_eq_iff, errorSeries_ne_durationSeries.symm,
        operationSeries_ne_errorSeries]

end Counts

/-! ### One layer of a stack -/

section Layer

variable {op : Operation} {above below : List Decorator} {d : Decorator} {vs : List Visit}

/-- A layer is the one in question, or stands above it or below it. -/
theorem layer_of_suffix {d' : Decorator} {rest : List Decorator}
    (h : d' :: rest <:+ above ++ d :: below) :
    d' ∈ above ∨ (d' = d ∧ rest = below) ∨ d' ∈ below := by
  induction above with
  | nil =>
    rcases List.suffix_cons_iff.1 h with heq | h
    · exact .inr (.inl (List.cons.inj heq))
    · exact .inr (.inr (h.subset (by simp)))
  | cons a above ih =>
    rcases List.suffix_cons_iff.1 h with heq | h
    · exact .inl (by simp [(List.cons.inj heq).1])
    · exact (ih h).imp_left fun hmem => by simp [hmem]

variable {s : Stack I K P ι} {name : String} {h h' : OperationMetrics}

/-- If one layer alone uses the handle then a call is counted exactly if it came back from this
layer. -/
theorem Stack.Places.counts_iff {v : Visit} (hv : s.Places name v)
    (haround : s.around op = above ++ .metrics h' :: below) (hh' : h'.Shares h)
    (halone : ∀ d ∈ above ++ below, ¬ d.Feeds h) :
    v.Counts h name op ↔ v.operation = op ∧ v.layers.length = below.length + 1 := by
  rcases v with ⟨layers, resource, op', e⟩
  obtain ⟨rfl, hlayers⟩ := hv
  constructor
  · rintro ⟨⟨d, hd, hfeeds⟩, -, rfl⟩
    cases layers with
    | nil => cases hd
    | cons d' rest =>
      cases hd
      rw [haround] at hlayers
      rcases layer_of_suffix hlayers with hmem | ⟨-, rfl⟩ | hmem
      · exact absurd hfeeds (halone d (by simp [hmem]))
      · exact ⟨rfl, rfl⟩
      · exact absurd hfeeds (halone d (by simp [hmem]))
  · rintro ⟨rfl, hlength⟩
    rw [haround] at hlayers
    have hthis : Decorator.metrics h' :: below <:+ above ++ Decorator.metrics h' :: below :=
      List.suffix_append _ _
    have heq : layers = Decorator.metrics h' :: below :=
      (List.suffix_of_suffix_length_le hlayers hthis hlength.le).eq_of_length hlength
    subst heq
    exact ⟨⟨_, rfl, hh'⟩, rfl, rfl⟩

variable (hvs : ∀ v ∈ vs, s.Places name v)
  (haround : s.around op = above ++ .metrics h' :: below) (hh' : h'.Shares h)
  (halone : ∀ d ∈ above ++ below, ¬ d.Feeds h)
include hvs haround hh' halone

theorem invocations_eq :
    invocations h name op vs = (outcomes op (below.length + 1) vs).length := by
  rw [invocations, outcomes, List.length_map, ← List.countP_eq_length_filter]
  refine List.countP_congr fun v hv => ?_
  simp [(hvs v hv).counts_iff haround hh' halone]

theorem failures_eq :
    failures h name op vs = (outcomes op (below.length + 1) vs).countP Option.isSome := by
  rw [failures, outcomes, List.countP_map, List.countP_filter]
  refine List.countP_congr fun v hv => ?_
  simp [(hvs v hv).counts_iff haround hh' halone, and_comm]

end Layer

/-! ### The accounts of a sequence of passes -/

/-- A pass that ran to its end. -/
structure Completed (I : Interface) (K : Type) where
  /-- Which pass. -/
  pass : Pass
  /-- The object. -/
  key : K
  /-- What happened. -/
  acts : List (Act I)
  /-- What the pass came to. -/
  result : Except Error Unit

/-- It, without its notes. -/
def Completed.plain (c : Completed (noting I) K) : Completed I K where
  pass := c.pass
  key := c.key
  acts := Reconciler.plain c.acts
  result := c.result

/-- The series of all handles, if `recorded` is what was recorded while these calls came back, and
`own` what the resource beneath recorded of it by itself. -/
structure Stack.Accounts (s : Stack I K P ι) (name : String) (vs : List Visit)
    (own recorded : List Measurement) : Prop where
  /-- The calls are counted once for each layer that uses the handle, -/
  operations : ∀ h resource op, Metrics.value recorded (h.operationSeries resource op) =
    invocations h resource op vs + Metrics.value own (h.operationSeries resource op)
  /-- the failures among them as well, -/
  errors : ∀ h resource op, Metrics.value recorded (h.errorSeries resource op) =
    failures h resource op vs + Metrics.value own (h.errorSeries resource op)
  /-- and all of them are timed. -/
  durations : ∀ h resource op, Metrics.value recorded (h.durationSeries resource op) =
    invocations h resource op vs + Metrics.value own (h.durationSeries resource op)
  /-- Every layer passes its calls on to the next. -/
  layered : ∀ op, Layered op (s.around op) vs
  /-- A metrics layer on the resource itself counts every call that the resource gets, however often
  the layers above repeat it. -/
  direct : ∀ h op above h', s.around op = above ++ [.metrics h'] → h'.Shares h →
    (∀ d ∈ above, ¬ d.Feeds h) →
      invocations h name op vs = (outcomes op 0 vs).length ∧
        failures h name op vs = (outcomes op 0 vs).countP Option.isSome
  /-- A metrics layer that no layer above repeats counts every call of the outermost layer once,
  however often the layers below repeat it, and as a failure only if that call failed. -/
  outside : ∀ h op above h' below, s.around op = above ++ .metrics h' :: below → h'.Shares h →
    (∀ d ∈ above ++ below, ¬ d.Feeds h) → (∀ d ∈ above, ¬ d.Repeats) →
      invocations h name op vs = (outcomes op (s.around op).length vs).length ∧
        failures h name op vs = (outcomes op (s.around op).length vs).countP Option.isSome

/-- What every pass ensures holds of all of them together. -/
theorem Accrues.past {T : List (Act I) → Prop} (hT : Accrues T) {past : List (Completed I K)}
    (h : ∀ c ∈ past, T c.acts) : T (past.flatMap Completed.acts) := by
  rw [List.flatMap_def]
  refine hT.flatten fun acts hacts => ?_
  obtain ⟨c, hc, rfl⟩ := List.mem_map.1 hacts
  exact h c hc

theorem plain_past (noted : List (Completed (noting I) K)) :
    plain (noted.flatMap Completed.acts) =
      (noted.map Completed.plain).flatMap Completed.acts := by
  induction noted with
  | nil => rfl
  | cons c noted ih =>
    rw [List.map_cons, List.flatMap_cons, List.flatMap_cons, plain_append, ih]
    rfl

/-- Passes over a stack have accounts. -/
theorem Stack.exists_accounts (s : Stack I K P ι) (reg : Registry I K P ι)
    {noted : List (Completed (noting I) K)}
    (h : ∀ c ∈ noted, Runs (s.noted reg c.pass c.key) c.acts (some c.result)) :
    ∃ beneath : List (List (Act I)), (∀ acts ∈ beneath, reg.Performs s.base acts) ∧
      beneath.flatten.Sublist (plain (noted.flatMap Completed.acts)) ∧
      s.Accounts (reg.name s.base) (visits (noted.flatMap Completed.acts))
        (measured beneath.flatten) (measured (noted.flatMap Completed.acts)) := by
  have hall {T : List (Act (noting I)) → Prop} (hT : Accrues T)
      (hpass : ∀ pass k, Ensures T (s.noted reg pass k)) : T (noted.flatMap Completed.acts) :=
    hT.past fun c hc => hpass c.pass c.key c.acts c.result (h c hc)
  obtain ⟨beneath, hbase, hbooks⟩ := hall accrues_booked (s.ensures_booked reg)
  have hplaced := hall (accrues_forall (s.Places (reg.name s.base))).visits (s.ensures_placed reg)
  have hlayered (op : Operation) := hall (accrues_layered op (s.around op)).visits
    fun pass k => s.ensures_layered reg pass k op
  refine ⟨beneath, hbase, hbooks.sublist, ?_, ?_, ?_, hlayered, ?_, ?_⟩
  · intro h resource op
    rw [hbooks.value, value_operationSeries]
  · intro h resource op
    rw [hbooks.value, value_errorSeries]
  · intro h resource op
    rw [hbooks.value, value_durationSeries]
  · intro h op above h' haround hh' halone
    have halone : ∀ d ∈ above ++ [], ¬ d.Feeds h := by simpa using halone
    rw [invocations_eq hplaced haround hh' halone, failures_eq hplaced haround hh' halone]
    have hlast : [Decorator.metrics h'] ++ [] <:+ s.around op := by
      rw [haround, List.append_nil]
      exact List.suffix_append _ _
    have hsame := (hlayered op).steady hlast (by simp [Decorator.Repeats])
    rw [List.append_nil, List.length_singleton] at hsame
    rw [List.length_nil, Nat.zero_add, hsame]
    exact ⟨rfl, rfl⟩
  · intro h op above h' below haround hh' halone habove
    rw [invocations_eq hplaced haround hh' halone, failures_eq hplaced haround hh' halone]
    have hwhole : above ++ Decorator.metrics h' :: below <:+ s.around op := by
      rw [haround]
    have hsame := (hlayered op).steady hwhole habove
    rw [List.length_cons] at hsame
    rw [haround, hsame]
    exact ⟨rfl, rfl⟩

/-- A decorated resource is a stack of decorators, and its passes are those of the stack without the
notes. Whatever passes have run to their end, calls came back from the layers in some way that the
notes tell, and whatever the notes tell is what the series of all handles count, apart from what the
resource beneath recorded by itself. -/
theorem Registry.Decorated.accounts {reg : Registry I K P ι} {s : Stack I K P ι}
    {r : Resource I K P ι} (h : reg.Decorated s r) :
    (∀ pass k, (s.noted reg pass k).interpret forget = reg.ensure pass r k) ∧
      ∀ past : List (Completed I K),
        (∀ c ∈ past, Runs (reg.ensure c.pass r c.key) c.acts (some c.result)) →
          (∃ noted : List (Completed (noting I) K), noted.map Completed.plain = past ∧
            ∀ c ∈ noted, Runs (s.noted reg c.pass c.key) c.acts (some c.result)) ∧
          ∀ noted : List (Completed (noting I) K), noted.map Completed.plain = past →
            (∀ c ∈ noted, Runs (s.noted reg c.pass c.key) c.acts (some c.result)) →
              ∃ beneath : List (List (Act I)), (∀ acts ∈ beneath, reg.Performs s.base acts) ∧
                beneath.flatten.Sublist (past.flatMap Completed.acts) ∧
                s.Accounts (reg.name s.base) (visits (noted.flatMap Completed.acts))
                  (measured beneath.flatten) (measured (past.flatMap Completed.acts)) := by
  obtain rfl := h.resource_eq
  refine ⟨s.interpret_noted reg, fun past hpast => ⟨?_, ?_⟩⟩
  · clear h
    induction past with
    | nil => exact ⟨[], rfl, by simp⟩
    | cons c past ih =>
      obtain ⟨noted, rfl, hnoted⟩ := ih fun c' hc' => hpast c' (by simp [hc'])
      have hc := hpast c (by simp)
      rw [← s.interpret_noted] at hc
      obtain ⟨acts, hruns, hacts⟩ := exists_run_of_forget hc
      refine ⟨⟨c.pass, c.key, acts, c.result⟩ :: noted, ?_, ?_⟩
      · rw [List.map_cons, Completed.plain, hacts]
      · exact List.forall_mem_cons.2 ⟨hruns, hnoted⟩
  · rintro noted rfl hnoted
    rw [← plain_past, measured_plain]
    exact s.exists_accounts reg hnoted

/-! ### A flag that is measured twice -/

namespace Registry

/-- What is measured beneath the retries of a flag. -/
def attemptsHandle : OperationMetrics where
  namespaceName := "flag"
  subsystem := "attempts"
  service := "demo"

/-- What is measured outside of them. -/
def stepsHandle : OperationMetrics where
  namespaceName := "flag"
  subsystem := "steps"
  service := "demo"

/-- A flag whose calls are measured, retried once, and measured again. -/
def flagStack : Stack flagpole Unit (Bool ⊕ Bool) Empty where
  base := .crud flagCrud
  calls := [.metrics stepsHandle, .retry ⟨.capped .zero 1 0, 2⟩, .metrics attemptsHandle]
  layers := []

theorem decorated_flagStack : flagRegistry.Decorated flagStack flagStack.resource := by
  have hattempts := (Decorated.base (.crud flagCrud)).wrapOne
    (wrapOne_crud flagRegistry (.metrics attemptsHandle) _)
  have hretried := hattempts.wrapOne
    (wrapOne_crud flagRegistry (.retry ⟨.capped .zero 1 0, 2⟩) _)
  exact hretried.wrapOne (wrapOne_crud flagRegistry (.metrics stepsHandle) _)

/-- It is down, and cannot be put up at once. -/
def stuck (q : flagpole.Request) (tried : Bool) : flagpole.Reply q × Bool :=
  match q with
  | none => (false, tried)
  | some _ => (if tried then .ok () else .error (.resource "flag" "busy" true), true)

/-- The same; notes need no answer. -/
def stuckNoting : (q : (noting flagpole).Request) → Bool → (noting flagpole).Reply q × Bool
  | .inl q, tried => stuck q tried
  | .inr _, tried => ((), tried)

/-- An update pass over it. -/
def flagPass : Completed flagpole Unit where
  pass := .update
  key := ()
  acts := ((flagRegistry.ensure .update flagStack.resource ()).perform stuck default false).1.map
    Prod.fst
  result := .ok ()

/-- The pass, with notes. -/
def flagPassNoted : Completed (noting flagpole) Unit where
  pass := .update
  key := ()
  acts := ((flagStack.noted flagRegistry .update ()).perform stuckNoting default false).1.map
    Prod.fst
  result := .ok ()

/-- A flag does nothing but ask. -/
theorem only_flag {T : Act flagpole → Prop} (hT : ∀ q rep, T (.asked q rep))
    (call : Call Bool Bool) : Only T (flag.perform call ()) := by
  cases call with
  | getCurrent => exact only_ask (hT _) fun _ => only_done _
  | getDesired => exact only_done _
  | newPatch pass current desired =>
    cases pass with
    | _ => cases current with
      | _ => exact only_done _
  | apply slot up => exact only_ask (hT _) fun _ => only_done _

theorem only_flagCrud {T : Act flagpole → Prop} (hT : ∀ q rep, T (.asked q rep))
    (call : Call (Bool ⊕ Bool) (Bool ⊕ Bool)) : Only T (flagCrud.ops.perform call ()) := by
  cases call with
  | getCurrent => exact (only_flag hT .getCurrent).andThen fun _ => only_done _
  | getDesired => exact (only_flag hT .getDesired).andThen fun _ => only_done _
  | newPatch pass current desired =>
    rcases current with current | _
    · rcases desired with desired | _
      · exact (only_flag hT (.newPatch pass current desired)).andThen fun _ => only_done _
      · exact only_done _
    · exact only_done _
  | apply slot change =>
    rcases change with _ | up
    · exact only_done _
    · exact only_flag hT (.apply slot up)

/-- So it records nothing by itself. -/
theorem measured_of_performs {as : List (Act flagpole)}
    (h : flagRegistry.Performs (.crud flagCrud) as) : measured as = [] := by
  obtain ⟨call, k, x, hruns⟩ := h
  refine List.filterMap_eq_nil_iff.2 fun a ha => ?_
  obtain ⟨q, rep, rfl⟩ := only_flagCrud (T := fun a => ∃ q rep, a = .asked q rep)
    (fun q rep => ⟨q, rep, rfl⟩) call as _ hruns a ha
  rfl

/-- It is put up at the second attempt. Both attempts are counted beneath the retries, one of them
as a failure, and outside of them one step is counted, and no failure. -/
theorem accounts_flagPass :
    let recorded := measured flagPass.acts
    Metrics.value recorded (attemptsHandle.operationSeries "flag" .applyCreateChange) = 2 ∧
      Metrics.value recorded (attemptsHandle.errorSeries "flag" .applyCreateChange) = 1 ∧
      Metrics.value recorded (attemptsHandle.durationSeries "flag" .applyCreateChange) = 2 ∧
      Metrics.value recorded (stepsHandle.operationSeries "flag" .applyCreateChange) = 1 ∧
      Metrics.value recorded (stepsHandle.errorSeries "flag" .applyCreateChange) = 0 := by
  obtain ⟨-, hpast⟩ := decorated_flagStack.accounts
  have hruns : Runs (flagRegistry.ensure .update flagStack.resource ()) flagPass.acts
      (some (.ok ())) := runs_perform stuck default _ false
  have hnoted : Runs (flagStack.noted flagRegistry .update ()) flagPassNoted.acts
      (some (.ok ())) := runs_perform stuckNoting default _ false
  obtain ⟨-, hall⟩ := hpast [flagPass] (List.forall_mem_singleton.2 hruns)
  obtain ⟨beneath, hbase, -, haccounts⟩ :=
    hall [flagPassNoted] rfl (List.forall_mem_singleton.2 hnoted)
  have hown : measured beneath.flatten = [] := by
    refine Accrues.flatten (T := fun as => measured as = []) ⟨rfl, fun h h' => ?_⟩ fun acts hacts =>
      measured_of_performs (hbase acts hacts)
    rw [measured_append, h, h']
    rfl
  have hattempts := haccounts.direct attemptsHandle .applyCreateChange
    [.metrics stepsHandle, .retry ⟨.capped .zero 1 0, 2⟩] attemptsHandle rfl ⟨rfl, rfl, rfl⟩
    (by decide)
  have hsteps := haccounts.outside stepsHandle .applyCreateChange [] stepsHandle
    [.retry ⟨.capped .zero 1 0, 2⟩, .metrics attemptsHandle] rfl ⟨rfl, rfl, rfl⟩ (by decide)
    (by simp)
  have hrecorded : measured ([flagPass].flatMap Completed.acts) = measured flagPass.acts := by
    simp
  rw [hrecorded, hown] at haccounts
  refine ⟨?_, ?_, ?_, ?_, ?_⟩
  · rw [haccounts.operations]
    exact hattempts.1
  · rw [haccounts.errors]
    exact hattempts.2
  · rw [haccounts.durations]
    exact hattempts.1
  · rw [haccounts.operations]
    exact hsteps.1
  · rw [haccounts.errors]
    exact hsteps.2

end Registry

end Reconciler
