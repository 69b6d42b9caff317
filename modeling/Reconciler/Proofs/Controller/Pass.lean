import Reconciler.Proofs.Controller.Answers
import Reconciler.Proofs.Controller.Finalizer

/-!
# When an update pass reaches the resources

A pass asks three kinds of questions: the server about the finalizer, the resources, and, when it
fails, whoever records failures. It goes one of three ways, by how many sets handle the object, and
only if exactly one does is there work for the resources.

In an update pass the resources have their turn only after the finalizer, so a question of a
resource tells that the finalizer was settled: by the copy of the object at hand, or by a server
that has the object.

## Main definitions

* `Controller.AsksResource`, `Controller.AsksObject` : a resource asked something, or the object
  was asked for
* `Controller.Shows`, `Controller.Finds` : the server settled the finalizer, or had the object
* `Controller.Idle` : nothing was asked about the object or of a resource
* `Controller.Turns` : the turns of the resources
* `Controller.Passes` : the ways a pass can go

## Main results

* `Controller.only_reconcile_of` : what holds of the parts of a pass holds of the pass
* `Controller.passes_of_reconcile` : every pass goes one of them
* `Controller.settled_of_asksResource` : no resource asks before the finalizer is settled
* `Controller.asksResource_iff` : the resources have their turn exactly if it is
-/

namespace Reconciler

namespace Controller

open Program

variable {I : Interface} {β P ι α : Type}

/-- A resource asked something. -/
def AsksResource (as : List (Act (controllerInterface I β))) : Prop :=
  ∃ q rep, .asked (.resource q) rep ∈ as

/-- The server was asked about an object. -/
def AsksObject (as : List (Act (controllerInterface I β))) : Prop :=
  ∃ q rep, .asked (.object q) rep ∈ as

/-- The server settled that the finalizer is on, or need not be. -/
def Shows (c : Controller I β P ι) (as : List (Act (controllerInterface I β))) : Prop :=
  ∃ q rep, .asked (.object q) rep ∈ as ∧ c.finalizers.Settles q rep

/-- A read of the object found something. -/
def Finds (o : Object β) (as : List (Act (controllerInterface I β))) : Prop :=
  ∃ latest, .asked (.object (.get o.metadata.namespaceName o.name)) (.ok latest) ∈ as

/-! ### Who asks what -/

/-- What the object client is asked is asked on as a question about stored objects. -/
theorem runs_ofClient {p : Program (objectClient β) α} {as : List (Act (controllerInterface I β))}
    {r : Option α} (h : Runs (ofClient p) as r) : ∃ as', Runs p as' r ∧
      as = as'.map (Act.embed (J := controllerInterface I β) .object fun _ rep => rep) :=
  Runs.of_interpret_ask (I := objectClient β) (J := controllerInterface I β)
    ControllerRequest.object (fun _ rep => rep) (fun _ rep => rep) (fun _ _ => rfl) h

theorem asked_mem_map_object {as : List (Act (objectClient β))} {q : ObjectRequest β}
    {rep : Except Error (Object β)} :
    .asked (.object q) rep ∈
        as.map (Act.embed (J := controllerInterface I β) .object fun _ rep => rep) ↔
      Act.asked (I := objectClient β) q rep ∈ as := by
  constructor
  · intro hmem
    obtain ⟨a, ha, heq⟩ := List.mem_map.1 hmem
    cases a with
    | asked q' rep' =>
      cases heq
      exact ha
    | _ => cases heq
  · intro hmem
    exact List.mem_map.2 ⟨_, hmem, rfl⟩

theorem runs_ofResource {p : Program I α} {as : List (Act (controllerInterface I β))}
    {r : Option α} (h : Runs (ofResource p) as r) : ∃ as', Runs p as' r ∧
      as = as'.map (Act.embed (J := controllerInterface I β) .resource fun _ rep => rep) :=
  Runs.of_interpret_ask (J := controllerInterface I β) ControllerRequest.resource
    (fun _ rep => rep) (fun _ rep => rep) (fun _ _ => rfl) h

/-! ### What holds of the parts of a pass -/

section

variable {T : Act (controllerInterface I β) → Prop} {c : Controller I β P ι} {pass : Pass}
  {s : ResourceSet I (Object β) P ι} {o : Object β}

/-- What holds of every act of the resources holds of every act of their turns. -/
theorem only_runResources_of
    (h : ∀ r ∈ s.resources, Only T (ofResource (c.registry.ensure pass r o))) :
    Only T (c.runResources pass s o) := by
  rw [runResources]
  generalize s.resources = resources at h
  induction resources with
  | nil => exact only_done _
  | cons first others ih =>
    obtain ⟨hfirst, hothers⟩ := List.forall_mem_cons.1 h
    exact hfirst.andThen fun _ => ih hothers

theorem only_runPass_of (hensure : Only T (ofClient (c.finalizers.ensure o)))
    (hremove : Only T (ofClient (c.finalizers.remove o)))
    (hresources : Only T (c.runResources pass s o)) : Only T (c.runPass pass s o) := by
  cases pass with
  | update => exact hensure.andThen fun _ => hresources
  | delete => exact hresources.andThen fun _ => hremove

theorem only_release_of (hlogged : ∀ entry, T (.signalled (.log entry)))
    (hremove : Only T (ofClient (c.finalizers.remove o))) : Only T (c.release pass o) := by
  cases pass with
  | update => exact (only_signal (hlogged _) (only_done _)).bind fun _ => only_done _
  | delete => exact only_ite hremove (only_done _)

theorem only_publish_of (hpublished : ∀ ref f, T (.asked (.publish ref f) ())) (f : Failure) :
    Only T (c.publish o f) :=
  only_ite (only_ask (fun _ => hpublished _ f) fun _ => only_done _) (only_done _)

/-- What holds of the measurements, of log entries and of records holds of all that ends a pass. -/
theorem only_finish_of
    (hmeasured : ∀ succeeded, ∀ m ∈ c.metrics.ended pass succeeded, T (.signalled (.measure m)))
    (hlogged : ∀ entry, T (.signalled (.log entry)))
    (hpublished : ∀ ref f, T (.asked (.publish ref f) ())) (x : Except Error Unit) :
    Only T (c.finish pass o x) := by
  have hlog (e : LogEvent) : Only T (Program.log e : Task I β Unit) :=
    only_signal (hlogged _) (only_done _)
  cases x with
  | ok u =>
    exact (only_measure_of_forall (hmeasured true)).bind fun _ =>
      (hlog _).bind fun _ => only_done _
  | error e =>
    exact (only_measure_of_forall (hmeasured false)).bind fun _ =>
      (hlog _).bind fun _ => (only_publish_of hpublished _).bind fun _ => only_done _

/-- What holds of the parts of a pass holds of the pass. -/
theorem only_reconcile_of (hspan : ∀ a, T a → T (a.inSpan ⟨pass, c.name, o.key⟩))
    (hbegun : ∀ m ∈ c.metrics.begun pass, T (.signalled (.measure m)))
    (hended : ∀ succeeded, ∀ m ∈ c.metrics.ended pass succeeded, T (.signalled (.measure m)))
    (hlogged : ∀ entry, T (.signalled (.log entry)))
    (hpublished : ∀ ref f, T (.asked (.publish ref f) ()))
    (hremove : Only T (ofClient (c.finalizers.remove o)))
    (hpass : ∀ s ∈ c.sets, Only T (c.runPass pass s o)) : Only T (c.reconcile pass o) := by
  rw [reconcile_eq]
  refine Only.inSpan ?_ hspan
  rcases hsets : c.sets.filter (fun s => s.handles o) with _ | ⟨s, _ | ⟨s', others⟩⟩
  · rw [hsets, passOver_nil]
    exact only_release_of hlogged hremove
  · have hs : s ∈ c.sets := List.mem_of_mem_filter (hsets ▸ List.mem_singleton_self s)
    rw [hsets, passOver_singleton]
    exact (only_measure_of_forall hbegun).bind fun _ =>
      (hpass s hs).bind fun x => only_finish_of hended hlogged hpublished x
  · rw [hsets, passOver_of_several (by simp)]
    exact (only_signal (hlogged _) (only_done _)).bind fun _ =>
      (only_publish_of hpublished _).bind fun _ => only_done _

end

/-! ### What is not asked -/

/-- The act is not a question that `K` holds of. -/
def Avoids (K : ControllerRequest I β → Prop) (a : Act (controllerInterface I β)) : Prop :=
  ∀ q rep, a = .asked q rep → ¬ K q

variable {K : ControllerRequest I β → Prop}

theorem avoids_signalled (s : Signal) : Avoids K (.signalled s) := by
  intro q rep h
  cases h

theorem avoids_asked {q : ControllerRequest I β} {rep : (controllerInterface I β).Reply q} :
    Avoids K (.asked q rep) ↔ ¬ K q := by
  constructor
  · intro h
    exact h q rep rfl
  · intro h q' rep' heq
    cases heq
    exact h

theorem only_ofClient (hK : ∀ q, ¬ K (.object q)) (p : Program (objectClient β) α) :
    Only (Avoids K) (ofClient (I := I) p) := by
  intro as r h a ha
  obtain ⟨as', -, rfl⟩ := runs_ofClient h
  obtain ⟨b, -, rfl⟩ := List.mem_map.1 ha
  cases b with
  | asked q rep => exact avoids_asked.2 (hK q)
  | _ => rintro q rep ⟨⟩

theorem only_ofResource (hK : ∀ q, ¬ K (.resource q)) (p : Program I α) :
    Only (Avoids K) (ofResource (β := β) p) := by
  intro as r h a ha
  obtain ⟨as', -, rfl⟩ := runs_ofResource h
  obtain ⟨b, -, rfl⟩ := List.mem_map.1 ha
  cases b with
  | asked q rep => exact avoids_asked.2 (hK q)
  | _ => rintro q rep ⟨⟩

section

variable (c : Controller I β P ι) (hK : ∀ ref f, ¬ K (.publish ref f))
include hK

theorem only_publish (o : Object β) (f : Failure) : Only (Avoids K) (c.publish o f) :=
  only_publish_of (fun ref f => avoids_asked.2 (hK ref f)) f

theorem only_finish (pass : Pass) (o : Object β) (x : Except Error Unit) :
    Only (Avoids K) (c.finish pass o x) :=
  only_finish_of (fun _ _ _ => avoids_signalled _) (fun _ => avoids_signalled _)
    (fun ref f => avoids_asked.2 (hK ref f)) x

end

/-! ### Questions that count -/

theorem asksResource_append {as bs : List (Act (controllerInterface I β))} :
    AsksResource (as ++ bs) ↔ AsksResource as ∨ AsksResource bs := by
  simp only [AsksResource, List.mem_append, exists_or]

theorem asksObject_append {as bs : List (Act (controllerInterface I β))} :
    AsksObject (as ++ bs) ↔ AsksObject as ∨ AsksObject bs := by
  simp only [AsksObject, List.mem_append, exists_or]

theorem shows_append {c : Controller I β P ι} {as bs : List (Act (controllerInterface I β))} :
    c.Shows (as ++ bs) ↔ c.Shows as ∨ c.Shows bs := by
  simp only [Shows, List.mem_append, or_and_right, exists_or]

theorem finds_append {o : Object β} {as bs : List (Act (controllerInterface I β))} :
    Finds o (as ++ bs) ↔ Finds o as ∨ Finds o bs := by
  simp only [Finds, List.mem_append, exists_or]

/-- A question of a resource. -/
def IsResource (q : ControllerRequest I β) : Prop := ∃ q', q = .resource q'

theorem not_asksResource_of_only {p : Task I β α} (h : Only (Avoids IsResource) p)
    {as : List (Act (controllerInterface I β))} {r : Option α} (hruns : Runs p as r) :
    ¬ AsksResource as := by
  rintro ⟨q, rep, hmem⟩
  exact h as r hruns _ hmem _ rep rfl ⟨q, rfl⟩

/-- A question about the object. -/
def IsObject (q : ControllerRequest I β) : Prop := ∃ q', q = .object q'

theorem not_asksObject_of_only {p : Task I β α} (h : Only (Avoids IsObject) p)
    {as : List (Act (controllerInterface I β))} {r : Option α} (hruns : Runs p as r) :
    ¬ AsksObject as := by
  rintro ⟨q, rep, hmem⟩
  exact h as r hruns _ hmem _ rep rfl ⟨q, rfl⟩

/-- What is asked of the server is asked of no resource. -/
theorem not_asksResource_ofClient {p : Program (objectClient β) α}
    {as : List (Act (controllerInterface I β))} {r : Option α} (hruns : Runs (ofClient p) as r) :
    ¬ AsksResource as := by
  refine not_asksResource_of_only (only_ofClient ?_ p) hruns
  rintro q ⟨q', hq⟩
  cases hq

/-- What is asked of a resource is not asked of the server. -/
theorem not_asksObject_ofResource {p : Program I α} {as : List (Act (controllerInterface I β))}
    {r : Option α} (hruns : Runs (ofResource p) as r) : ¬ AsksObject as := by
  refine not_asksObject_of_only (only_ofResource ?_ p) hruns
  rintro q ⟨q', hq⟩
  cases hq

/-- A question about the object or of a resource. -/
def IsWork (q : ControllerRequest I β) : Prop := ∀ ref f, q ≠ .publish ref f

/-- The same questions about the object and of the resources, and the same answers. -/
def SameWork (as bs : List (Act (controllerInterface I β))) : Prop :=
  ∀ q rep, IsWork q → (.asked q rep ∈ as ↔ .asked q rep ∈ bs)

theorem sameWork_inSpan (span : Span) (as : List (Act (controllerInterface I β))) :
    SameWork (as.map (Act.inSpan span)) as :=
  fun _ _ _ => asked_mem_map_inSpan

/-- No question about the object or of a resource: at most signals and failures to record. -/
def Idle (as : List (Act (controllerInterface I β))) : Prop := ∀ a ∈ as, Avoids IsWork a

theorem idle_nil : Idle ([] : List (Act (controllerInterface I β))) := by
  simp [Idle]

theorem Idle.sameWork {as : List (Act (controllerInterface I β))} (h : Idle as) :
    SameWork as [] := by
  intro q rep hq
  refine iff_of_false (fun hmem => ?_) List.not_mem_nil
  exact h _ hmem q rep rfl hq

namespace SameWork

variable {as bs cs ds : List (Act (controllerInterface I β))}

theorem refl (as : List (Act (controllerInterface I β))) : SameWork as as :=
  fun _ _ _ => Iff.rfl

theorem append (h : SameWork as bs) (h' : SameWork cs ds) : SameWork (as ++ cs) (bs ++ ds) := by
  intro q rep hq
  rw [List.mem_append, List.mem_append, h q rep hq, h' q rep hq]

theorem asksResource (h : SameWork as bs) : AsksResource as ↔ AsksResource bs :=
  exists_congr fun q => exists_congr fun rep => h (.resource q) rep (by simp [IsWork])

theorem asksObject (h : SameWork as bs) : AsksObject as ↔ AsksObject bs :=
  exists_congr fun q => exists_congr fun rep => h (.object q) rep (by simp [IsWork])

theorem shows (h : SameWork as bs) (c : Controller I β P ι) : c.Shows as ↔ c.Shows bs :=
  exists_congr fun q => exists_congr fun rep =>
    and_congr_left' (h (.object q) rep (by simp [IsWork]))

theorem finds (h : SameWork as bs) (o : Object β) : Finds o as ↔ Finds o bs :=
  exists_congr fun latest => h (.object (.get _ _)) (.ok latest) (by simp [IsWork])

end SameWork

/-- Idle acts around others leave the same work. -/
theorem sameWork_around {before after : List (Act (controllerInterface I β))}
    (during : List (Act (controllerInterface I β))) (hbefore : Idle before) (hafter : Idle after) :
    SameWork (before ++ during ++ after) during := by
  have hsame := (hbefore.sameWork.append (.refl during)).append hafter.sameWork
  simpa using hsame

theorem Idle.not_asksResource {as : List (Act (controllerInterface I β))} (h : Idle as) :
    ¬ AsksResource as := by
  rw [h.sameWork.asksResource]
  rintro ⟨q, rep, ⟨⟩⟩

theorem Idle.not_asksObject {as : List (Act (controllerInterface I β))} (h : Idle as) :
    ¬ AsksObject as := by
  rw [h.sameWork.asksObject]
  rintro ⟨q, rep, ⟨⟩⟩

/-! ### The parts of a pass -/

theorem not_isWork_publish (ref : ObjectReference) (f : Failure) :
    ¬ IsWork (.publish ref f : ControllerRequest I β) :=
  fun h => h ref f rfl

/-- What is measured before a program is no question at all. -/
theorem runs_measured {ms : List Measurement} {p : Task I β α}
    {as : List (Act (controllerInterface I β))} {r : Option α}
    (h : Runs ((Program.measure ms).bind fun _ => p) as r) :
    ∃ as', Runs p as' r ∧ SameWork as as' := by
  have hmeasure : Only (Avoids IsWork) (Program.measure ms : Task I β Unit) :=
    only_measure avoids_signalled _
  rcases h.of_bind with ⟨rfl, hcut⟩ | ⟨_, before, as, rfl, hbefore, hrest⟩
  · have hidle : Idle as := hmeasure as none hcut
    exact ⟨[], .cut _, hidle.sameWork⟩
  · have hidle : Idle before := hmeasure before _ hbefore
    exact ⟨as, hrest, hidle.sameWork.append (.refl as)⟩

/-- The turns of resources in a pass, and what they came to: one after the other succeeds, up to the
first that fails or that the run does not get past. -/
inductive Turns (c : Controller I β P ι) (pass : Pass) (o : Object β) :
    List (Resource I (Object β) P ι) → List (Act (controllerInterface I β)) →
      Option (Except Error Unit) → Prop where
  | all : Turns c pass o [] [] (some (.ok ()))
  | next {first : Resource I (Object β) P ι} {others : List (Resource I (Object β) P ι)}
      {as bs : List (Act (controllerInterface I β))} {x : Option (Except Error Unit)}
      (h : Runs (ofResource (c.registry.ensure pass first o)) as (some (.ok ())))
      (hothers : Turns c pass o others bs x) : Turns c pass o (first :: others) (as ++ bs) x
  | last {first : Resource I (Object β) P ι} (others : List (Resource I (Object β) P ι))
      {as : List (Act (controllerInterface I β))} {x : Option (Except Error Unit)}
      (h : Runs (ofResource (c.registry.ensure pass first o)) as x) (hx : x ≠ some (.ok ())) :
      Turns c pass o (first :: others) as x

theorem turns_of_runResources {c : Controller I β P ι} {pass : Pass}
    {s : ResourceSet I (Object β) P ι} {o : Object β} {as : List (Act (controllerInterface I β))}
    {r : Option (Except Error Unit)} (h : Runs (c.runResources pass s o) as r) :
    ∃ x, c.Turns pass o s.resources as x ∧ (r = none ∨ r = x) := by
  rw [runResources] at h
  generalize s.resources = resources at h
  induction resources generalizing as with
  | nil =>
    obtain ⟨rfl, hr⟩ := h.of_done
    exact ⟨some (.ok ()), .all, hr⟩
  | cons first others ih =>
    rcases h.of_andThen with ⟨rfl, hcut⟩ | ⟨e, hr, hfailed⟩ | ⟨_, as₁, as₂, rfl, hfirst, hrest⟩
    · exact ⟨none, .last others hcut (by simp), .inl rfl⟩
    · exact ⟨some (.error e), .last others hfailed (by simp), hr⟩
    · obtain ⟨x, hothers, hr⟩ := ih hrest
      exact ⟨x, .next hfirst hothers, hr⟩

/-- The resources do not ask for the object. -/
theorem Turns.not_asksObject {c : Controller I β P ι} {pass : Pass} {o : Object β}
    {resources : List (Resource I (Object β) P ι)} {as : List (Act (controllerInterface I β))}
    {x : Option (Except Error Unit)} (h : c.Turns pass o resources as x) : ¬ AsksObject as := by
  induction h with
  | all => exact idle_nil.not_asksObject
  | next h _ ih =>
    rw [asksObject_append]
    exact not_or.2 ⟨not_asksObject_ofResource h, ih⟩
  | last others h => exact not_asksObject_ofResource h

/-- A finished pass yields what the pass came to. -/
theorem finish_ok {c : Controller I β P ι} {pass : Pass} {o : Object β} {x y : Except Error Unit}
    {as : List (Act (controllerInterface I β))} (h : Runs (c.finish pass o x) as (some y)) :
    y = x := by
  rcases x with e | u
  · obtain ⟨_, _, _, -, -, h⟩ := h.complete_of_bind
    obtain ⟨_, _, _, -, -, h⟩ := h.complete_of_bind
    obtain ⟨_, _, _, -, -, h⟩ := h.complete_of_bind
    simpa using h.of_done.2
  · obtain ⟨_, _, _, -, -, h⟩ := h.complete_of_bind
    obtain ⟨_, _, _, -, -, h⟩ := h.complete_of_bind
    simpa using h.of_done.2

/-- The ways a pass can go once the sets that handle the object are found, and its result. -/
inductive Passes (c : Controller I β P ι) (pass : Pass) (o : Object β)
    (found : List (ResourceSet I (Object β) P ι)) :
    List (Act (controllerInterface I β)) → Option (Except Error Unit) → Prop where
  /-- There are several, which is reported. -/
  | ambiguous {as : List (Act (controllerInterface I β))} {r : Option (Except Error Unit)}
      (hsets : 1 < found.length) (h : Idle as) : Passes c pass o found as r
  /-- There is none. -/
  | unhandled {as : List (Act (controllerInterface I β))} {r : Option (Except Error Unit)}
      (hsets : found = []) (h : Runs (c.release pass o) as r) : Passes c pass o found as r
  /-- There is one. What is measured before its pass and how it is finished is no work. -/
  | handled {s : ResourceSet I (Object β) P ι} (hsets : found = [s])
      {before during after : List (Act (controllerInterface I β))}
      {x r : Option (Except Error Unit)} (hbefore : Idle before)
      (hpass : Runs (c.runPass pass s o) during x) (hafter : Idle after) (hr : r = none ∨ r = x) :
      Passes c pass o found (before ++ during ++ after) r

/-- A pass goes one of these ways. -/
theorem passes_of_passOver {c : Controller I β P ι} {pass : Pass} {o : Object β}
    {found : List (ResourceSet I (Object β) P ι)} {as : List (Act (controllerInterface I β))}
    {r : Option (Except Error Unit)} (h : Runs (c.passOver pass o found) as r) :
    c.Passes pass o found as r := by
  rcases found with _ | ⟨s, _ | ⟨s', others⟩⟩
  · exact .unhandled rfl h
  · rw [passOver_singleton] at h
    have hmeasure : Only (Avoids IsWork) (Program.measure (c.metrics.begun pass) : Task I β Unit) :=
      only_measure avoids_signalled _
    rcases h.of_bind with ⟨rfl, hcut⟩ | ⟨_, before, as', rfl, hbefore, hrest⟩
    · have hpasses : c.Passes pass o [s] (as ++ [] ++ []) none :=
        .handled rfl (hmeasure as none hcut) (.cut _) idle_nil (.inl rfl)
      simpa using hpasses
    have hidle : Idle before := hmeasure before _ hbefore
    rcases hrest.of_bind with ⟨rfl, hcut⟩ | ⟨x, during, after, rfl, hduring, hfinish⟩
    · have hpasses : c.Passes pass o [s] (before ++ as' ++ []) none :=
        .handled rfl hidle hcut idle_nil (.inl rfl)
      simpa using hpasses
    · have hafter : Idle after := c.only_finish not_isWork_publish pass o x after r hfinish
      have hr : r = none ∨ r = some x := by
        cases r with
        | none => exact .inl rfl
        | some y => exact .inr (congrArg some (finish_ok hfinish))
      rw [← List.append_assoc]
      exact .handled rfl hidle hduring hafter hr
  · rw [passOver_of_several (by simp)] at h
    refine .ambiguous (by simp) ?_
    exact ((only_log avoids_signalled _).bind fun _ =>
      (c.only_publish not_isWork_publish o _).bind fun _ => only_done _ : Only _ _) as r h

/-- Every pass goes one of these ways, within its span, over the sets whose predicates hold. -/
theorem passes_of_reconcile {c : Controller I β P ι} {pass : Pass} {o : Object β}
    {as : List (Act (controllerInterface I β))} {r : Option (Except Error Unit)}
    (h : Runs (c.reconcile pass o) as r) :
    ∃ as', as = as'.map (Act.inSpan ⟨pass, c.name, o.key⟩) ∧
      c.Passes pass o (c.sets.filter fun s => s.handles o) as' r := by
  rw [reconcile_eq] at h
  obtain ⟨as, hpass, rfl⟩ := h.of_inSpan
  exact ⟨as, rfl, passes_of_passOver hpass⟩

/-- The finalizer part of an update pass asks no resource. It succeeds exactly if the copy carries
the finalizer, or the server settles it. -/
theorem runs_ensure {c : Controller I β P ι} {o : Object β}
    {as : List (Act (controllerInterface I β))} {r : Option (Except Error Unit)}
    (h : Runs (ofClient (c.finalizers.ensure o)) as r) :
    ¬ AsksResource as ∧ ∀ x, r = some x →
      (x = .ok () ↔ o.hasFinalizer c.finalizers.name = true ∨ c.Shows as) := by
  refine ⟨not_asksResource_ofClient h, ?_⟩
  rintro x rfl
  obtain ⟨as', hruns, rfl⟩ := runs_ofClient h
  rw [Finalizers.ensure_ok_iff hruns]
  refine or_congr_right (exists_congr fun q => exists_congr fun rep => ?_)
  exact and_congr_left' asked_mem_map_object.symm

/-- If the copy does not carry the finalizer, the server has to have the object. -/
theorem finds_of_ensure {c : Controller I β P ι} {o : Object β}
    {as : List (Act (controllerInterface I β))}
    (h : Runs (ofClient (c.finalizers.ensure o)) as (some (.ok ())))
    (hnot : o.hasFinalizer c.finalizers.name = false) : Finds o as := by
  obtain ⟨as', hruns, rfl⟩ := runs_ofClient h
  obtain ⟨latest, hmem⟩ := Finalizers.found_of_ensure_ok hruns hnot
  exact ⟨latest, List.mem_map.2 ⟨_, hmem, rfl⟩⟩

/-- In an update pass over a selected set a resource asks only once the finalizer is settled. -/
theorem settled_of_createPass {c : Controller I β P ι} {s : ResourceSet I (Object β) P ι}
    {o : Object β} {as : List (Act (controllerInterface I β))} {r : Option (Except Error Unit)}
    (h : Runs (c.createPass s o) as r) (hasks : AsksResource as) :
    o.hasFinalizer c.finalizers.name = true ∨ c.Shows as ∧ Finds o as := by
  rcases h.of_andThen with ⟨-, hcut⟩ | ⟨e, -, hfailed⟩ | ⟨_, as₁, as₂, rfl, hensure, -⟩
  · exact absurd hasks (runs_ensure hcut).1
  · exact absurd hasks (runs_ensure hfailed).1
  · rcases Bool.eq_false_or_eq_true (o.hasFinalizer c.finalizers.name) with hon | hoff
    · exact .inl hon
    have hshows : c.Shows as₁ :=
      (((runs_ensure hensure).2 _ rfl).1 rfl).resolve_left (by simp [hoff])
    rw [shows_append, finds_append]
    exact .inr ⟨.inl hshows, .inl (finds_of_ensure hensure hoff)⟩

/-- Once the finalizer is settled the first resource has its turn. -/
theorem asksResource_of_createPass {c : Controller I β P ι} {s : ResourceSet I (Object β) P ι}
    {o : Object β} {first : Resource I (Object β) P ι} {others : List (Resource I (Object β) P ι)}
    (hs : s.resources = first :: others) (hfirst : (c.registry.ensure .update first o).Inquires)
    {as : List (Act (controllerInterface I β))} {x : Except Error Unit}
    (h : Runs (c.createPass s o) as (some x))
    (hsettled : o.hasFinalizer c.finalizers.name = true ∨ c.Shows as) : AsksResource as := by
  rcases h.of_andThen with ⟨hnone, -⟩ | ⟨e, -, hfailed⟩ | ⟨_, as₁, as₂, rfl, hensure, hres⟩
  · cases hnone
  · cases ((runs_ensure hfailed).2 _ rfl).2 hsettled
  rw [runResources, hs, List.map_cons, Program.sequence] at hres
  -- the pass of the first resource ran to its end, well or not
  obtain ⟨as₃, as₄, y, rfl, hrun⟩ : ∃ as₃ as₄ y, as₂ = as₃ ++ as₄ ∧
      Runs (ofResource (β := β) (c.registry.ensure .update first o)) as₃ (some y) := by
    rcases hres.of_andThen with ⟨hnone, -⟩ | ⟨e, -, hfailed⟩ | ⟨u, as₃, as₄, rfl, hok, -⟩
    · cases hnone
    · exact ⟨as₂, [], .error e, (List.append_nil _).symm, hfailed⟩
    · exact ⟨as₃, as₄, .ok u, rfl, hok⟩
  obtain ⟨as', hruns, rfl⟩ := runs_ofResource hrun
  obtain ⟨q, rep, hmem⟩ := hfirst as' y hruns
  refine asksResource_append.2 (.inr (asksResource_append.2 (.inl ⟨q, rep, ?_⟩)))
  exact List.mem_map.2 ⟨_, hmem, rfl⟩

/-! ### Update passes -/

/-- An object that no set handles needs no work. -/
theorem idle_of_release {c : Controller I β P ι} {o : Object β}
    {as : List (Act (controllerInterface I β))} {r : Option (Except Error Unit)}
    (h : Runs (c.release .update o) as r) : Idle as := by
  have hidle : Only (Avoids IsWork) (c.release .update o) :=
    (only_log avoids_signalled _).bind fun _ => only_done _
  exact hidle as r h

/-- In an update pass a resource asks only if one set handles the object, and only once the
finalizer is settled: by the copy at hand, or by a server that has the object. -/
theorem settled_of_asksResource {c : Controller I β P ι} {o : Object β}
    {as : List (Act (controllerInterface I β))} {r : Option (Except Error Unit)}
    (h : Runs (c.reconcile .update o) as r) (hasks : AsksResource as) :
    (∃ s, c.sets.filter (fun s => s.handles o) = [s]) ∧
      (o.hasFinalizer c.finalizers.name = true ∨ c.Shows as ∧ Finds o as) := by
  obtain ⟨as', rfl, hpasses⟩ := passes_of_reconcile h
  have hspan := sameWork_inSpan ⟨.update, c.name, o.key⟩ as'
  rw [hspan.asksResource] at hasks
  rw [hspan.shows, hspan.finds]
  cases hpasses with
  | ambiguous hsets hidle => exact absurd hasks hidle.not_asksResource
  | unhandled hsets hrelease => exact absurd hasks (idle_of_release hrelease).not_asksResource
  | @handled s hsets before during after x r hbefore hpass hafter hr =>
    have hsame := sameWork_around during hbefore hafter
    rw [hsame.shows, hsame.finds]
    exact ⟨⟨s, hsets⟩, settled_of_createPass hpass (hsame.asksResource.1 hasks)⟩

/-- In an update pass that came to its end the resources of the set had their turn exactly if the
finalizer was settled. -/
theorem asksResource_iff {c : Controller I β P ι} {o : Object β} {s : ResourceSet I (Object β) P ι}
    (hs : c.sets.filter (fun s => s.handles o) = [s]) {first : Resource I (Object β) P ι}
    {others : List (Resource I (Object β) P ι)} (hres : s.resources = first :: others)
    (hfirst : (c.registry.ensure .update first o).Inquires)
    {as : List (Act (controllerInterface I β))} {x : Except Error Unit}
    (h : Runs (c.reconcile .update o) as (some x)) :
    AsksResource as ↔ o.hasFinalizer c.finalizers.name = true ∨ c.Shows as := by
  constructor
  · intro hasks
    exact (settled_of_asksResource h hasks).2.imp_right And.left
  · intro hsettled
    obtain ⟨as', rfl, hpasses⟩ := passes_of_reconcile h
    have hspan := sameWork_inSpan ⟨.update, c.name, o.key⟩ as'
    rw [hspan.shows] at hsettled
    rw [hspan.asksResource]
    cases hpasses with
    | ambiguous hsets => simp [hs] at hsets
    | unhandled hsets => simp [hsets] at hs
    | @handled s' hsets before during after y r hbefore hpass hafter hr =>
      obtain rfl : s' = s := by simpa [hsets] using hs
      have hsame := sameWork_around during hbefore hafter
      obtain rfl := hr.resolve_left (by simp)
      rw [hsame.shows] at hsettled
      exact hsame.asksResource.2 (asksResource_of_createPass hres hfirst hpass hsettled)

end Controller

end Reconciler
