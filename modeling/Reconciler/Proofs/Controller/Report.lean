import Reconciler.Proofs.Controller.Boot

/-!
# What a failed pass leaves on its object

A pass that fails records its error on the object, once, and a pass that succeeds records nothing.
It does not matter which part of the pass failed: several sets handle the object, the finalizer
could not be put on or taken off, or a resource failed.

The exception is an object that no set handles. A delete pass has nothing to clean up then and takes
the finalizer off at once; if that fails, the error is returned and recorded nowhere.

## Main definitions

* `Controller.recorded` : what was recorded, and on which objects
* `Controller.Releases` : a pass only has to take the finalizer off
* `Controller.records` : what a pass with a given result has to record

## Main results

* `Controller.recorded_of_reconcile` : what a pass records
* `Boot.failed_unrecorded` : a pass that fails and records nothing
-/

namespace Reconciler

open Program

variable {I : Interface} {β P ι α : Type}

namespace Controller

/-- What was recorded, and on which objects. -/
def recorded (as : List (Act (controllerInterface I β))) : List (ObjectReference × Failure) :=
  as.filterMap fun
    | .asked (.publish ref f) _ => some (ref, f)
    | _ => none

@[simp] theorem recorded_append (as bs : List (Act (controllerInterface I β))) :
    recorded (as ++ bs) = recorded as ++ recorded bs :=
  List.filterMap_append

theorem recorded_inSpan (span : Span) (as : List (Act (controllerInterface I β))) :
    recorded (as.map (Act.inSpan span)) = recorded as :=
  filterMap_inSpan (fun _ => rfl) span as

/-! ### Nothing else records -/

/-- A question that records a failure. -/
def IsRecord (q : ControllerRequest I β) : Prop := ∃ ref f, q = .publish ref f

theorem recorded_of_only {p : Task I β α} (h : Only (Avoids IsRecord) p)
    {as : List (Act (controllerInterface I β))} {r : Option α} (hruns : Runs p as r) :
    recorded as = [] := by
  refine List.filterMap_eq_nil_iff.2 fun a ha => ?_
  rcases a with s | d | m | ⟨q, rep⟩
  · rfl
  · rfl
  · rfl
  · cases q with
    | object q => rfl
    | resource q => rfl
    | publish ref f => exact absurd ⟨ref, f, rfl⟩ (h as r hruns _ ha _ rep rfl)

variable {K : ControllerRequest I β → Prop} (c : Controller I β P ι)

theorem only_runResources (hresource : ∀ q, ¬ K (.resource q)) (pass : Pass)
    (s : ResourceSet I (Object β) P ι) (o : Object β) :
    Only (Avoids K) (c.runResources pass s o) :=
  only_runResources_of fun _ _ => only_ofResource hresource _

theorem only_runPass (hobject : ∀ q, ¬ K (.object q)) (hresource : ∀ q, ¬ K (.resource q))
    (pass : Pass) (s : ResourceSet I (Object β) P ι) (o : Object β) :
    Only (Avoids K) (c.runPass pass s o) :=
  only_runPass_of (only_ofClient hobject _) (only_ofClient hobject _)
    (c.only_runResources hresource pass s o)

theorem only_release (hobject : ∀ q, ¬ K (.object q)) (pass : Pass) (o : Object β) :
    Only (Avoids K) (c.release pass o) :=
  only_release_of (fun _ => avoids_signalled _) (only_ofClient hobject _)

theorem not_isRecord_object (q : ObjectRequest β) :
    ¬ IsRecord (.object q : ControllerRequest I β) := by
  rintro ⟨ref, f, ⟨⟩⟩

theorem not_isRecord_resource (q : I.Request) :
    ¬ IsRecord (.resource q : ControllerRequest I β) := by
  rintro ⟨ref, f, ⟨⟩⟩

/-! ### What a pass records -/

/-- The reason that a failed pass is recorded with. -/
def reason (pass : Pass) (o : Object β) : FailureReason :=
  if 1 < (c.sets.filter fun s => s.handles o).length then .ambiguousResourceSet else .ofPass pass

/-- A pass over an object that no set handles, which only has to take the finalizer off. -/
def Releases (pass : Pass) (o : Object β) : Prop :=
  pass = .delete ∧ c.sets.filter (fun s => s.handles o) = []

instance (pass : Pass) (o : Object β) : Decidable (c.Releases pass o) :=
  inferInstanceAs (Decidable (_ ∧ _))

/-- What a pass with a given result has to record: nothing if it succeeded, and its error, once, if
it failed. A controller may have nowhere to record it. -/
def records (pass : Pass) (o : Object β) : Except Error Unit → List (ObjectReference × Failure)
  | .ok () => []
  | .error e =>
    if c.publishes then [(o.reference c.kind, .ofError pass (c.reason pass o) e)] else []

variable {c} {pass : Pass} {o : Object β} {as : List (Act (controllerInterface I β))}

theorem recorded_of_publish {f : Failure} (h : Runs (c.publish o f) as (some ())) :
    recorded as = if c.publishes then [(o.reference c.kind, f)] else [] := by
  by_cases hp : c.publishes = true
  · have hask : c.publish o f = .ask (.publish (o.reference c.kind) f) .done := if_pos hp
    rw [hask] at h
    obtain ⟨rep, as', rfl, hdone⟩ := h.of_ask
    rw [hdone.of_done.1, if_pos hp]
    rfl
  · have hdone : c.publish o f = .done () := if_neg hp
    rw [hdone] at h
    rw [h.of_done.1, if_neg hp]
    rfl

/-- The end of a pass that one set handles. -/
theorem recorded_of_finish {x y : Except Error Unit}
    (hsets : ¬ 1 < (c.sets.filter fun s => s.handles o).length)
    (h : Runs (c.finish pass o x) as (some y)) : recorded as = c.records pass o x := by
  have hmeasured := only_measure (I := controllerInterface I β) (P := Avoids IsRecord)
    avoids_signalled
  have hlogged := only_log (I := controllerInterface I β) (P := Avoids IsRecord) avoids_signalled
  rcases x with e | u
  · obtain ⟨_, measured, as, rfl, hmeasure, h⟩ := h.complete_of_bind
    obtain ⟨_, logged, as, rfl, hlog, h⟩ := h.complete_of_bind
    obtain ⟨_, published, as, rfl, hpublish, h⟩ := h.complete_of_bind
    rw [h.of_done.1, recorded_append, recorded_append, recorded_append,
      recorded_of_only (hmeasured _) hmeasure, recorded_of_only (hlogged _) hlog,
      recorded_of_publish hpublish, records, reason, if_neg hsets]
    simp [recorded]
  · obtain ⟨_, measured, as, rfl, hmeasure, h⟩ := h.complete_of_bind
    obtain ⟨_, logged, as, rfl, hlog, h⟩ := h.complete_of_bind
    rw [h.of_done.1, recorded_append, recorded_append, recorded_of_only (hmeasured _) hmeasure,
      recorded_of_only (hlogged _) hlog]
    rfl

/-- A pass that one set handles. -/
theorem recorded_of_selected {s : ResourceSet I (Object β) P ι}
    (hsets : c.sets.filter (fun s => s.handles o) = [s]) {x : Except Error Unit}
    (h : Runs ((Program.measure (c.metrics.begun pass)).bind fun _ =>
      (c.runPass pass s o).bind fun x => c.finish pass o x) as (some x)) :
    recorded as = c.records pass o x := by
  obtain ⟨_, before, as, rfl, hbefore, h⟩ := h.complete_of_bind
  obtain ⟨y, during, after, rfl, hduring, hafter⟩ := h.complete_of_bind
  obtain rfl := finish_ok hafter
  rw [recorded_append, recorded_append, recorded_of_only (only_measure avoids_signalled _) hbefore,
    recorded_of_only (c.only_runPass not_isRecord_object not_isRecord_resource pass s o) hduring,
    recorded_of_finish (by simp [hsets]) hafter]
  rfl

/-- A pass that several sets would handle. -/
theorem recorded_of_ambiguous (hsets : 1 < (c.sets.filter fun s => s.handles o).length) {e : Error}
    {x : Except Error Unit}
    (h : Runs ((Program.log (.objectAmbiguous e)).bind fun _ =>
      (c.publish o (.ofError pass .ambiguousResourceSet e)).bind fun _ => .done (.error e)) as
      (some x)) :
    recorded as = c.records pass o x := by
  obtain ⟨_, logged, as, rfl, hlog, h⟩ := h.complete_of_bind
  obtain ⟨_, published, as, rfl, hpublish, h⟩ := h.complete_of_bind
  obtain ⟨rfl, hx⟩ := h.of_done
  obtain rfl : x = .error e := by simpa using hx
  rw [recorded_append, recorded_append, recorded_of_only (only_log avoids_signalled _) hlog,
    recorded_of_publish hpublish, records, reason, if_pos hsets]
  simp [recorded]

/-- A pass that fails has recorded its error, once, on the object, with the pass, the resource that
the error names and its wording; a pass that succeeds has recorded nothing. But a pass that only has
to take the finalizer off records nothing even if it fails. -/
theorem recorded_of_reconcile {x : Except Error Unit}
    (h : Runs (c.reconcile pass o) as (some x)) :
    recorded as = if c.Releases pass o then [] else c.records pass o x := by
  rw [reconcile_eq] at h
  obtain ⟨as, hpass, rfl⟩ := h.of_inSpan
  rw [recorded_inSpan]
  rcases hsets : c.sets.filter (fun s => s.handles o) with _ | ⟨s, _ | ⟨s', others⟩⟩
  · rw [hsets, passOver_nil] at hpass
    rw [recorded_of_only (c.only_release not_isRecord_object pass o) hpass]
    cases pass with
    | delete => rw [if_pos ⟨rfl, hsets⟩]
    | update =>
      obtain ⟨_, _, _, -, -, hdone⟩ := hpass.complete_of_bind
      obtain rfl : x = .ok () := by simpa using hdone.of_done.2
      rw [if_neg (by rintro ⟨⟨⟩, -⟩)]
      rfl
  · rw [hsets, passOver_singleton] at hpass
    rw [if_neg (by rintro ⟨-, hnone⟩; simp [hsets] at hnone)]
    exact recorded_of_selected hsets hpass
  · rw [hsets, passOver_of_several (by simp)] at hpass
    rw [if_neg (by rintro ⟨-, hnone⟩; simp [hsets] at hnone)]
    exact recorded_of_ambiguous (by simp [hsets]) hpass

end Controller

/-! ### A delete pass of which every request is refused -/

namespace Boot

/-- A controller that records failures, of one resource; its set handles every object, or none. -/
def recorder (handles : Bool) : Controller callOut Unit Unit Unit :=
  { caller with sets := [⟨fun _ => handles, [.basic ()]⟩], publishes := true }

/-- What the server refuses with. -/
def forbidden : Error := .server (.api ⟨"Failure", "forbidden", "Forbidden", 403⟩)

/-- What the resource fails with. -/
def down : Error := .resource "r" "down" false

/-- How its delete pass over an object that carries the finalizer goes. -/
def refusedPass (handles : Bool) :
    List (Act (controllerInterface callOut Unit) × Unit) × Option (Except Error Unit) × Unit :=
  let reply : (q : (controllerInterface callOut Unit).Request) →
      (controllerInterface callOut Unit).Reply q
    | .object _ => (.error forbidden : Except Error (Object Unit))
    | .resource _ => (.error down : Except Error Unit)
    | .publish _ _ => ()
  ((recorder handles).reconcile .delete (owned "2" true)).perform (fun q s => (reply q, s))
    default ()

theorem runs_refusedPass (handles : Bool) :
    Runs ((recorder handles).reconcile .delete (owned "2" true))
      ((refusedPass handles).1.map Prod.fst) (refusedPass handles).2.1 :=
  runs_perform _ _ _ _

/-- If the set handles the object, the failure of the resource is recorded. -/
theorem recorded_refusedPass :
    Controller.recorded ((refusedPass true).1.map Prod.fst) =
      [((owned "2" true).reference caller.kind, .ofError .delete .deleteFailed down)] := by
  have hresult : (refusedPass true).2.1 = some (.error down) := rfl
  have hruns := runs_refusedPass true
  rw [hresult] at hruns
  rw [Controller.recorded_of_reconcile hruns]
  rfl

/-- If it does not, the finalizer cannot be taken off; the pass fails, and nothing is recorded
although the controller records failures. -/
theorem failed_unrecorded :
    (recorder false).publishes = true ∧
      Runs ((recorder false).reconcile .delete (owned "2" true))
        ((refusedPass false).1.map Prod.fst) (some (.error forbidden)) ∧
      Controller.recorded ((refusedPass false).1.map Prod.fst) = [] :=
  ⟨rfl, runs_refusedPass false, rfl⟩

end Boot

end Reconciler
