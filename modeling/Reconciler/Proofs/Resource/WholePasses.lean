import Reconciler.Proofs.Resource.Layering
import Reconciler.Proofs.Resource.Layers

/-!
# Passes that are run again as a whole

A CRUD resource that is hidden beneath layers around its passes cannot be retried call by call any
more. A retry decorator then becomes one more layer, and what it repeats is the pass: it begins anew
with reading both states, and nothing that was read or computed in a pass that failed is used in the
next one. What such a pass had applied already stays applied, so that the next one may read
something else.

Neither the layers in between nor the decorators around the calls ask anything, as long as they do
not repeat calls themselves. So the questions of a whole run are those of the passes one after the
other, each up to its first failure.

## Main definitions

* `Exchange` : a call of a resource and its answer
* `Applied`, `PassLog` : what is asked in a pass, up to its first failure
* `Ops.Single` : calls that each ask one question

## Main results

* `Ops.Single.passLog` : a pass over such calls
* `Registry.Decorated.reruns_whole_passes` : the passes of a hidden resource under retry
-/

namespace Reconciler

open Program

variable {I : Interface} {K S C P ι α : Type}

/-! ### What is asked in a pass -/

/-- A call of a resource, as a question, with its answer. -/
abbrev Exchange (K S C : Type) := Σ q : (Ops.Calls K S C).Request, (Ops.Calls K S C).Reply q

/-- Changes are applied in order, up to the first failure, which is the result. -/
inductive Applied (k : K) : List (Slot × C) → List (Exchange K S C) → Except Error Unit → Prop where
  /-- No change is left. -/
  | done : Applied k [] [] (.ok ())
  /-- A change fails, and the rest is not applied. -/
  | failed (c : Slot × C) (cs : List (Slot × C)) (e : Error) :
      Applied k (c :: cs) [⟨(.apply c.1 c.2, k), .error e⟩] (.error e)
  /-- A change is applied. -/
  | cons (c : Slot × C) {cs : List (Slot × C)} {log : List (Exchange K S C)}
      {x : Except Error Unit} (h : Applied k cs log x) :
      Applied k (c :: cs) (⟨(.apply c.1 c.2, k), .ok ()⟩ :: log) x

/-- A pass reads both states, has the patch computed from these, and applies its changes. It ends
with the first call that fails, and has its error as its result. -/
inductive PassLog (pass : Pass) (k : K) : List (Exchange K S C) → Except Error Unit → Prop where
  /-- What exists cannot be read. -/
  | current (e : Error) : PassLog pass k [⟨(.getCurrent, k), .error e⟩] (.error e)
  /-- What should exist cannot be read. -/
  | desired (current : S) (e : Error) :
      PassLog pass k [⟨(.getCurrent, k), .ok current⟩, ⟨(.getDesired, k), .error e⟩] (.error e)
  /-- The patch cannot be computed. -/
  | patch (current desired : S) (e : Error) :
      PassLog pass k [⟨(.getCurrent, k), .ok current⟩, ⟨(.getDesired, k), .ok desired⟩,
        ⟨(.newPatch pass current desired, k), .error e⟩] (.error e)
  /-- The patch is applied. -/
  | changes (current desired : S) (patch : Patch C) {log : List (Exchange K S C)}
      {x : Except Error Unit} (h : Applied k patch.changes log x) :
      PassLog pass k (⟨(.getCurrent, k), .ok current⟩ :: ⟨(.getDesired, k), .ok desired⟩ ::
        ⟨(.newPatch pass current desired, k), .ok patch⟩ :: log) x

/-- A log ends with a call that fails with an error. -/
def EndsWith (e : Error) (log : List (Exchange K S C)) : Prop :=
  ∃ before q, log = before ++ [⟨q, .error e⟩]

theorem EndsWith.cons {e : Error} {log : List (Exchange K S C)} (h : EndsWith e log)
    (u : Exchange K S C) : EndsWith e (u :: log) := by
  obtain ⟨before, q, rfl⟩ := h
  exact ⟨u :: before, q, rfl⟩

theorem Applied.endsWith {k : K} {cs : List (Slot × C)} {log : List (Exchange K S C)} {e : Error}
    (h : Applied k cs log (.error e)) : EndsWith e log := by
  generalize hx : (.error e : Except Error Unit) = x at h
  induction h with
  | done => cases hx
  | failed c cs e' =>
    cases hx
    exact ⟨[], _, rfl⟩
  | cons c _ ih => exact (ih hx).cons _

/-- A pass that fails ends with the call that failed. -/
theorem PassLog.endsWith {pass : Pass} {k : K} {log : List (Exchange K S C)} {e : Error}
    (h : PassLog pass k log (.error e)) : EndsWith e log := by
  cases h with
  | current => exact ⟨[], _, rfl⟩
  | desired current => exact ⟨[_], _, rfl⟩
  | patch current desired => exact ⟨[_, _], _, rfl⟩
  | changes current desired patch h => exact ((h.endsWith.cons _).cons _).cons _

/-! ### Calls that ask one question -/

/-- Every call asks just itself, and has the answer as its result. -/
def Ops.Single (ops : Ops (Ops.Calls K S C) K S C) : Prop :=
  ∀ (call : Call S C) (k : K) as rep, Runs (ops.perform call k) as (some rep) →
    dialogue as = [⟨(call, k), rep⟩]

namespace Ops

variable {ops : Ops (Ops.Calls K S C) K S C}

theorem Single.applied (h : ops.Single) {k : K} {cs : List (Slot × C)}
    {as : List (Act (Ops.Calls K S C))} {x : Except Error Unit}
    (hruns : Runs (sequence (cs.map fun c => ops.perform (.apply c.1 c.2) k)) as (some x)) :
    Applied k cs (dialogue as) x := by
  induction cs generalizing as with
  | nil =>
    obtain ⟨rfl, hx⟩ := hruns.of_done
    obtain rfl : x = .ok () := by simpa using hx
    exact .done
  | cons c cs ih =>
    obtain ⟨e, rfl, hcall⟩ | ⟨u, as, as', rfl, hcall, hrest⟩ := hruns.complete_of_andThen
    · rw [h _ _ _ _ hcall]
      exact .failed c cs e
    · rw [dialogue_append, h _ _ _ _ hcall]
      exact .cons c (ih hrest)

/-- What a pass over such calls asks. -/
theorem Single.passLog (h : ops.Single) {pass : Pass} {k : K}
    {as : List (Act (Ops.Calls K S C))} {x : Except Error Unit}
    (hruns : Runs (ops.protocol pass k) as (some x)) : PassLog pass k (dialogue as) x := by
  rw [← reconcile_eq_protocol] at hruns
  obtain ⟨e, rfl, hcurrent⟩ | ⟨current, as₁, as, rfl, hcurrent, hruns⟩ := hruns.complete_of_andThen
  · rw [h _ _ _ _ hcurrent]
    exact .current e
  rw [dialogue_append, h _ _ _ _ hcurrent]
  obtain ⟨e, rfl, hdesired⟩ | ⟨desired, as₂, as, rfl, hdesired, hruns⟩ := hruns.complete_of_andThen
  · rw [h _ _ _ _ hdesired]
    exact .desired current e
  rw [dialogue_append, h _ _ _ _ hdesired]
  obtain ⟨e, rfl, hpatch⟩ | ⟨patch, as₃, as, rfl, hpatch, hruns⟩ := hruns.complete_of_andThen
  · rw [h _ _ _ _ hpatch]
    exact .patch current desired e
  rw [dialogue_append, h _ _ _ _ hpatch]
  exact .changes current desired patch (h.applied hruns)

theorem single_calling (name : String) : (calling K S C name).Single := by
  intro call k as rep h
  obtain ⟨rep', as, rfl, hend⟩ := h.of_ask
  obtain ⟨rfl, hrep⟩ := hend.of_done
  obtain rfl : rep = rep' := by simpa using hrep
  rfl

end Ops

/-! ### Decorators that do not repeat calls -/

/-- They ask nothing of their own. -/
theorem Decorator.dialogue_of_not_repeats {d : Decorator} (hd : ¬ d.Repeats) {resource : String}
    {op : Operation} {body : Program I (Except Error α)} {as : List (Act I)} {x : Except Error α}
    (h : Runs (d.around resource op body) as (some x)) :
    ∃ during, Runs body during (some x) ∧ dialogue as = dialogue during := by
  cases d with
  | logging =>
    obtain ⟨during, rfl, hduring⟩ := runs_logging h
    exact ⟨during, hduring, by simp⟩
  | retry policy => exact absurd True.intro hd
  | metrics handle =>
    obtain ⟨during, rfl, hduring⟩ := runs_metrics h
    exact ⟨during, hduring, by simp⟩

theorem dialogue_foldr_around {ds : List Decorator} (hds : ∀ d ∈ ds, ¬ d.Repeats)
    {resource : String} {op : Operation} {body : Program I (Except Error α)} {as : List (Act I)}
    {x : Except Error α}
    (h : Runs (ds.foldr (fun d p => d.around resource op p) body) as (some x)) :
    ∃ during, Runs body during (some x) ∧ dialogue as = dialogue during := by
  induction ds generalizing as with
  | nil => exact ⟨as, h, rfl⟩
  | cons d ds ih =>
    obtain ⟨hd, hds⟩ := List.forall_mem_cons.1 hds
    obtain ⟨outer, houter, hsame⟩ := Decorator.dialogue_of_not_repeats hd h
    obtain ⟨during, hduring, hsame'⟩ := ih hds houter
    exact ⟨during, hduring, hsame.trans hsame'⟩

theorem Ops.Single.foldr_decorate {ops : Ops (Ops.Calls K S C) K S C} (h : ops.Single)
    {ds : List Decorator} (hds : ∀ d ∈ ds, ¬ d.Repeats) : (ds.foldr Ops.decorate ops).Single := by
  intro call k as rep hruns
  rw [Ops.perform_foldr_decorate] at hruns
  obtain ⟨during, hduring, hsame⟩ := dialogue_foldr_around hds hruns
  rw [hsame]
  exact h call k during rep hduring

/-! ### A pass under retry -/

/-- What is asked when a pass is run again and again. -/
structure Reruns (K S C : Type) where
  /-- What is asked in the passes that were followed by another one, and what they failed with. -/
  failed : List (List (Exchange K S C) × Error)
  /-- What is asked in the last pass. -/
  last : List (Exchange K S C)

/-- Everything that is asked. -/
def Reruns.log (p : Reruns K S C) : List (Exchange K S C) := p.failed.flatMap Prod.fst ++ p.last

/-- The passes are those of a run under a policy that comes to a result. -/
structure Reruns.Follow (policy : RetryPolicy) (pass : Pass) (k : K) (x : Except Error Unit)
    (p : Reruns K S C) : Prop where
  /-- Each pass that is followed by another one ends with a call that failed in a way that may
  pass. -/
  failed : ∀ f ∈ p.failed,
    PassLog pass k f.1 (.error f.2) ∧ EndsWith f.2 f.1 ∧ f.2.isRetryable = true
  /-- The last pass decides the result. -/
  last : PassLog pass k p.last x
  /-- There is at most one more than the policy allows retries. -/
  count : ((p.failed.length + 1 : ℕ) : ℕ∞) ≤ policy.prototype.cap + 1
  /-- If the last pass could have been followed by another one then the retries are used up. -/
  exhausted : IsSetback x → ∀ c, policy.Allows c → (p.failed.length : ℕ∞) = c

/-- A program that asks what a pass asks, under retry. -/
theorem exists_reruns {policy : RetryPolicy} {pass : Pass} {k : K} {resource : String}
    {op : Operation} {body : Program (Ops.Calls K S C) (Except Error Unit)}
    (hbody : ∀ as x, Runs body as (some x) → PassLog pass k (dialogue as) x)
    {as : List (Act (Ops.Calls K S C))} {x : Except Error Unit}
    (h : Runs ((Decorator.retry policy).around resource op body) as (some x)) :
    ∃ p : Reruns K S C, p.log = dialogue as ∧ p.Follow policy pass k x := by
  obtain ⟨start, c, hc, rfl, rfl⟩ := runs_retry_iff.1 h
  have hnotices (r : Round (Ops.Calls K S C)) (hr : r ∈ c.rounds) : dialogue r.notice = [] := by
    obtain ⟨i, hi⟩ := List.mem_iff_getElem?.1 hr
    rw [runs_log (hc.notices i r hi)]
    rfl
  refine ⟨⟨c.rounds.map fun r => (dialogue r.during, r.error), dialogue c.last⟩, ?_, ?_⟩
  · rw [dialogue_cons_looked, RetryRecord.dialogue_acts hnotices, Reruns.log, List.flatMap_map]
  · refine ⟨?_, hbody _ _ hc.last, ?_, ?_⟩
    · intro f hf
      obtain ⟨r, hr, rfl⟩ := List.mem_map.1 hf
      obtain ⟨hcall, hretryable⟩ := hc.calls r hr
      have hpass := hbody _ _ hcall
      exact ⟨hpass, hpass.endsWith, hretryable⟩
    · rw [List.length_map, Nat.cast_succ]
      exact add_le_add_left hc.length_rounds_le 1
    · intro hx n hn
      rw [List.length_map]
      exact hc.length_rounds_eq (hn _) hx

/-! ### The resource as it is used -/

theorem Ops.answeredBy_foldr_decorate (ops : Ops I K S C) (ds : List Decorator) :
    (ds.foldr Ops.decorate (Ops.calling K S C ops.name)).answeredBy ops.respond =
      ds.foldr Ops.decorate ops := by
  have hperform : ((ds.foldr Ops.decorate (Ops.calling K S C ops.name)).answeredBy
      ops.respond).perform = (ds.foldr Ops.decorate ops).perform := by
    funext call k
    simp only [answeredBy, Ops.perform_foldr_decorate, Decorator.interpret_foldr_around]
    rw [calling, interpret_request]
    rfl
  have hname : (ds.foldr Ops.decorate (Ops.calling K S C ops.name)).name =
      (ds.foldr Ops.decorate ops).name := by
    rw [Ops.name_foldr_decorate, Ops.name_foldr_decorate, calling]
  exact congrArg₂ Ops.mk hname hperform

theorem Ops.Erases.foldr_decorate {state : Embedding P S} {change : Embedding P C}
    {ops : Ops I K S C} {erased : Ops I K P P} (h : ops.Erases state change erased)
    (ds : List Decorator) :
    (ds.foldr Ops.decorate ops).Erases state change (ds.foldr Ops.decorate erased) := by
  induction ds with
  | nil => exact h
  | cons d ds ih => exact ih.decorate d

/-- A pass over a typed resource in a stack is the pass over calls in this stack, answered by the
resource. -/
theorem Stack.ensure_resource (state : Embedding P S) (change : Embedding P C)
    (ops : Ops I K S C) (hname : ops.name ≠ "") (reg : Registry I K P ι)
    (calls layers : List Decorator) (pass : Pass) (k : K) :
    reg.ensure pass
        (Stack.resource ⟨.crud ⟨ops.erase state change, hname⟩, calls, layers⟩) k =
      (layers.foldr (fun d p => d.around ops.name pass.operation p)
        ((calls.foldr Ops.decorate (Ops.calling K S C ops.name)).protocol pass k)).interpret
          ops.respond := by
  have herases : (calls.foldr Ops.decorate ops).Erases state change
      (calls.foldr Ops.decorate (ops.erase state change)) := Ops.erases_erase.foldr_decorate calls
  rw [resource, reg.ensure_foldr_layer, name_core, Decorator.interpret_foldr_around,
    ← Ops.protocol_answeredBy, Ops.answeredBy_foldr_decorate]
  congr 1
  exact herases.reconcile pass k

theorem Stack.push_of_layers {s : Stack I K P ι} (h : s.layers ≠ []) (d : Decorator) :
    s.push d = { s with layers := d :: s.layers } := by
  rcases s with ⟨base, calls, layers⟩
  cases layers with
  | nil => exact absurd rfl h
  | cons d' layers =>
    cases base with
    | _ => rfl

/-- A CRUD resource is hidden beneath at least one layer, and neither the layers nor the decorators
around its calls repeat calls. If it is then decorated to be retried, the run of a pass that comes
to its end is made of passes, one after the other, as the calls of the resource show: each reads
both states anew, has its own patch computed from them, and applies changes of this patch. All but
the last end with a call that fails in a way that may pass, and the last one decides the result.
There is at most one more than the policy allows retries, and exactly one more if the last one fails
in such a way as well and the policy allows a fixed number. -/
theorem Registry.Decorated.reruns_whole_passes (state : Embedding P S) (change : Embedding P C)
    (ops : Ops I K S C) (hname : ops.name ≠ "") {reg : Registry I K P ι}
    {calls layers : List Decorator} {r decorated : Resource I K P ι} {policy : RetryPolicy}
    (h : reg.Decorated ⟨.crud ⟨ops.erase state change, hname⟩, calls, layers⟩ r)
    (hhidden : layers ≠ []) (hdecorators : ∀ d ∈ calls ++ layers, ¬ d.Repeats)
    (hwrapped : reg.wrapOne (.retry policy) r = .ok decorated) {pass : Pass} {k : K}
    {bs : List (Act I)} {x : Except Error Unit}
    (hruns : Runs (reg.ensure pass decorated k) bs (some x)) :
    ∃ as, Expands ops.respond as bs ∧
      ∃ p : Reruns K S C, p.log = dialogue as ∧ p.Follow policy pass k x := by
  obtain ⟨hcalls, hlayers⟩ := List.forall_mem_append.1 hdecorators
  have hsingle := (Ops.single_calling (K := K) (S := S) (C := C) ops.name).foldr_decorate hcalls
  rw [← (h.wrapOne hwrapped).resource_eq, Stack.push_of_layers hhidden,
    Stack.ensure_resource] at hruns
  obtain ⟨as, hasked, hexpands⟩ := hruns.of_interpret
  refine ⟨as, hexpands, exists_reruns (fun during y hduring => ?_) hasked⟩
  obtain ⟨within, hwithin, hsame⟩ := dialogue_foldr_around hlayers hduring
  rw [hsame]
  exact hsingle.passLog hwithin

/-! ### A flag that cannot be put up -/

/-- It is down, and setting it fails. -/
def jammed (q : flagpole.Request) (s : Unit) : flagpole.Reply q × Unit :=
  match q with
  | none => (false, s)
  | some _ => (.error (.resource "flag" "busy" true), s)

namespace Registry

/-- The flag, hidden beneath a layer that measures its passes and one that logs them. -/
def flagHidden : Resource flagpole Unit (Bool ⊕ Bool) Empty :=
  .layer .logging (.layer (.metrics default) (.crud flagCrud))

/-- It may be tried twice. -/
def flagTwice : RetryPolicy := ⟨.capped .zero 1 0, 2⟩

/-- What happens in an update pass over it under retry. -/
def jammedActs : List (Act flagpole) :=
  ((flagRegistry.ensure .update (.layer (.retry flagTwice) flagHidden) ()).perform jammed
    default ()).1.map Prod.fst

/-- If one retry is allowed then there are two passes, both of which fail. -/
theorem reruns_whole_passes_jammed :
    ∃ (as : List (Act (Ops.Calls Unit Bool Bool))) (first last : List (Exchange Unit Bool Bool))
        (e : Error), Expands flag.respond as jammedActs ∧ dialogue as = first ++ last ∧
      PassLog .update () first (.error e) ∧ EndsWith e first ∧ e.isRetryable = true ∧
      PassLog .update () last (.error (.resource "flag" "busy" true)) := by
  have hbase : flagRegistry.Decorated ⟨.crud flagCrud, [], [.logging, .metrics default]⟩
      flagHidden := (Decorated.base (.crud flagCrud)).layer.layer
  have hallows : flagTwice.Allows 1 := RetryPolicy.allows_of_allowance (by
    simp [flagTwice, Backoff.allowance?])
  have hwrapped : flagRegistry.wrapOne (.retry flagTwice) flagHidden =
      .ok (.layer (.retry flagTwice) flagHidden) := rfl
  have hruns : Runs (flagRegistry.ensure .update (.layer (.retry flagTwice) flagHidden) ())
      jammedActs (some (.error (.resource "flag" "busy" true))) := runs_perform jammed default _ ()
  obtain ⟨as, hexpands, p, hlog, hp⟩ := hbase.reruns_whole_passes flagState flagChange flag
    (by decide) (by simp) (by simp [Decorator.Repeats]) hwrapped hruns
  have hcount : p.failed.length = 1 := Nat.cast_inj.1 (hp.exhausted (by decide) 1 hallows)
  obtain ⟨⟨first, e⟩, hfirst⟩ := List.length_eq_one_iff.1 hcount
  have hfailed := hp.failed (first, e) (by rw [hfirst]; exact List.mem_singleton_self _)
  refine ⟨as, first, p.last, e, hexpands, ?_, hfailed.1, hfailed.2.1, hfailed.2.2, hp.last⟩
  rw [← hlog, Reruns.log, hfirst, List.flatMap_singleton]

end Registry

end Reconciler
