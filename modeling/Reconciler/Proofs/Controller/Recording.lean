import Reconciler.Proofs.Controller.Pass
import Reconciler.Proofs.Program.Completion
import Reconciler.Proofs.Retry

/-!
# What a controller records about its items

A controller counts an item before it does anything else about it, on the series of the stream that
the item came on. What it records later, about the pass, is on other instruments. So the series of a
stream counts the items of this stream, and nothing else, unless a resource records on the same
series by itself.

## Main definitions

* `ControllerMetrics.eventSeries` : the series of a stream
* `Controller.respond` : what is done about an item once it is counted
* `Controller.Records` : what the resources of a controller can record

## Main results

* `Controller.handle_eq` : an item is counted first
* `Controller.only_respond` : what the resources do not record is not recorded about an item
-/

namespace Reconciler

open Program

variable {I : Interface} {β P ι α : Type}

namespace ControllerMetrics

/-- The series that counts the items of a stream. -/
def eventSeries (m : ControllerMetrics) (s : Stream) : Measurement :=
  ⟨m.meter, m.events, [("controller", m.controller), ("stream", s.label)]⟩

theorem eventSeries_inj {m : ControllerMetrics} {s s' : Stream} :
    m.eventSeries s = m.eventSeries s' ↔ s = s' := by
  constructor
  · intro h
    cases s <;> cases s' <;> simp_all [eventSeries, Stream.label]
  · rintro rfl
    rfl

/-- What is recorded about a pass is on other series. -/
theorem eventSeries_notMem_begun (m : ControllerMetrics) (s : Stream) (pass : Pass) :
    m.eventSeries s ∉ m.begun pass := by
  simp [eventSeries, begun, events, reconciles]

theorem eventSeries_notMem_ended (m : ControllerMetrics) (s : Stream) (pass : Pass)
    (succeeded : Bool) : m.eventSeries s ∉ m.ended pass succeeded := by
  cases succeeded <;> simp [eventSeries, ended, events, duration, errors]

end ControllerMetrics

namespace Controller

/-- What is done about an item once it is counted. -/
def respond (c : Controller I β P ι) : Received β → Task I β Unit
  | .deletion o => (c.reconcile .delete o).bind fun _ => .done ()
  | .change o => (c.reconcile .update o).bind fun _ => .done ()
  | .failure e => .log (.informerErrorReceived c.name e)

/-- An item is counted before anything else is done about it. -/
theorem handle_eq (c : Controller I β P ι) (item : Received β) :
    c.handle item =
      .signal (.measure (c.metrics.eventSeries item.stream)) (c.respond item) := by
  cases item with
  | _ => rfl

/-- A resource of the controller can record this by itself. -/
def Records (c : Controller I β P ι) (m : Measurement) : Prop :=
  ∃ s ∈ c.sets, ∃ r ∈ s.resources, ∃ (pass : Pass) (o : Object β) (as : List (Act I))
    (x : Option (Except Error Unit)),
    Runs (c.registry.ensure pass r o) as x ∧ .signalled (.measure m) ∈ as

/-- The act is another one than to record `m`. -/
def Spares (m : Measurement) (a : Act I) : Prop := a ≠ .signalled (.measure m)

variable {m : Measurement}

theorem spares_log (entry : LogEntry) : Spares (I := I) m (.signalled (.log entry)) := by
  rintro ⟨⟩

theorem only_log_spares (e : LogEvent) : Only (Spares m) (Program.log e : Program I Unit) :=
  only_signal (spares_log _) (only_done _)

/-- Passing questions on records nothing. -/
theorem spares_embed {J : Interface} {emb : I.Request → J.Request}
    {toReply : ∀ q, I.Reply q → J.Reply (emb q)} {a : Act I} (h : Spares m a) :
    Spares m (a.embed emb toReply) := by
  cases a with
  | signalled s =>
    rintro ⟨⟩
    exact h rfl
  | _ => rintro ⟨⟩

theorem spares_inSpan {span : Span} {a : Act I} (h : Spares m a) : Spares m (a.inSpan span) := by
  rcases a with ⟨⟨e, _ | sp⟩ | m'⟩ | d | m' | ⟨q, rep⟩
  · rintro ⟨⟩
  · rintro ⟨⟩
  · exact h
  · rintro ⟨⟩
  · rintro ⟨⟩
  · rintro ⟨⟩

theorem only_ofClient_spares {p : Program (objectClient β) α} (h : Only (Spares m) p) :
    Only (Spares m) (ofClient (I := I) p) := by
  intro as r hruns a ha
  obtain ⟨as, hclient, rfl⟩ := runs_ofClient hruns
  obtain ⟨b, hb, rfl⟩ := List.mem_map.1 ha
  exact spares_embed (h as r hclient b hb)

theorem only_ofResource_spares {p : Program I α} (h : Only (Spares m) p) :
    Only (Spares m) (ofResource p : Task I β α) := by
  intro as r hruns a ha
  obtain ⟨as, hresource, rfl⟩ := runs_ofResource hruns
  obtain ⟨b, hb, rfl⟩ := List.mem_map.1 ha
  exact spares_embed (h as r hresource b hb)

/-! ### Edits of the finalizer -/

theorem only_retryLogged_spares {operation : Program I (Except Error α)}
    (h : Only (Spares m) operation) (policy : RetryPolicy) (name : String) :
    Only (Spares m) (retryLogged policy name operation) :=
  only_retryLogged (by rintro _ ⟨⟩) (by rintro _ ⟨⟩) spares_log h policy name

theorem only_request_spares (q : I.Request) : Only (Spares m) (request q) :=
  only_ask (by rintro rep ⟨⟩) fun _ => only_done _

theorem only_ensure_spares (f : Finalizers) (o : Object β) : Only (Spares m) (f.ensure o) := by
  have htry : Only (Spares m) (f.tryEnsure o) :=
    (only_request_spares _).andThen fun latest => only_ite (only_done _)
      ((only_request_spares _).andThen fun _ =>
        (only_log_spares _).bind fun _ => only_done _)
  exact only_ite (only_done _) (only_retryLogged_spares htry _ _)

theorem only_remove_spares (f : Finalizers) (o : Object β) : Only (Spares m) (f.remove o) := by
  have htry : Only (Spares m) (f.tryRemove o) :=
    (only_request_spares _).andThen fun latest => only_ite
      ((only_request_spares _).andThen fun _ =>
        (only_log_spares _).bind fun _ => only_done _) (only_done _)
  refine (only_retryLogged_spares htry _ _).bind fun x => ?_
  cases x with
  | ok u => exact only_done _
  | error e => exact only_ite ((only_log_spares _).bind fun _ => only_done _) (only_done _)

/-! ### Passes -/

section

variable {c : Controller I β P ι} {s : Stream}
  (hresources : ¬ c.Records (c.metrics.eventSeries s))
include hresources

theorem only_runPass_spares {set : ResourceSet I (Object β) P ι} (hset : set ∈ c.sets)
    (pass : Pass) (o : Object β) :
    Only (Spares (c.metrics.eventSeries s)) (c.runPass pass set o) := by
  refine only_runPass_of (only_ofClient_spares (only_ensure_spares _ o))
    (only_ofClient_spares (only_remove_spares _ o)) (only_runResources_of fun r hr => ?_)
  refine only_ofResource_spares fun as x hruns a ha => ?_
  rintro rfl
  exact hresources ⟨set, hset, r, hr, pass, o, as, x, hruns, ha⟩

theorem only_reconcile_spares (pass : Pass) (o : Object β) :
    Only (Spares (c.metrics.eventSeries s)) (c.reconcile pass o) := by
  refine only_reconcile_of (fun _ => spares_inSpan) ?_ ?_ spares_log (by rintro ref f ⟨⟩)
    (only_ofClient_spares (only_remove_spares _ o))
    fun set hset => only_runPass_spares hresources hset pass o
  · rintro m hm ⟨⟩
    exact c.metrics.eventSeries_notMem_begun s pass hm
  · rintro succeeded m hm ⟨⟩
    exact c.metrics.eventSeries_notMem_ended s pass succeeded hm

/-- What is done about an item once it is counted adds nothing to the counts of the streams. -/
theorem only_respond (item : Received β) :
    Only (Spares (c.metrics.eventSeries s)) (c.respond item) := by
  cases item with
  | deletion o => exact (only_reconcile_spares hresources .delete o).bind fun _ => only_done _
  | change o => exact (only_reconcile_spares hresources .update o).bind fun _ => only_done _
  | failure e => exact only_log_spares _

end

end Controller

end Reconciler
