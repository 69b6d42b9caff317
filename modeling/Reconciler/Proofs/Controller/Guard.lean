import Reconciler.Proofs.Controller.Server

/-!
# The finalizer before the resources

An update pass makes sure of the finalizer before any resource has its turn. If the copy at hand
does not carry it, then what the server last answered in this step tells what it kept when the step
ended: an object that carries the finalizer, because it was found there or was just written, or one
that is being deleted, for which it is too late. For such an object the step succeeds without the
finalizer, and the resources have their turn all the same.

Nothing is said of a copy that carries the finalizer, for which the server is not asked.

## Main definitions

* `Controller.Guarded` : the finalizer step ended with an answer of the server that settled it

## Main results

* `Controller.guarded_of_asksResource` : it did if a resource has its turn
* `Controller.stored_of_asksResource` : what the server kept then
* `Boot.unguarded` : a pass over an object that is being deleted and has no finalizer
-/

namespace Reconciler

open Program

variable {I : Interface} {β P ι : Type}

namespace Controller

/-- The server's last answer settled the finalizer, and no resource had its turn before: it showed
an object that carries the finalizer or is being deleted, or it took the finalizer over an object
that it had just shown. -/
inductive Guarded (c : Controller I β P ι) (o : Object β)
    (as : List (Act (controllerInterface I β))) : Prop where
  | found {before after : List (Act (controllerInterface I β))} {latest : Object β}
      (has : as = before ++
        .asked (.object (.get o.metadata.namespaceName o.name)) (.ok latest) :: after)
      (hbefore : ¬ AsksResource before) (hafter : ¬ AsksObject after)
      (hsettled : (latest.hasFinalizer c.finalizers.name || latest.isDeleting) = true)
  | written (latest rep : Object β) {before after : List (Act (controllerInterface I β))}
      (has : as = before ++
        .asked (.object (.get o.metadata.namespaceName o.name)) (.ok latest) ::
        .asked (.object (.replace (latest.addFinalizer c.finalizers.name))) (.ok rep) :: after)
      (hbefore : ¬ AsksResource before) (hafter : ¬ AsksObject after)

variable {c : Controller I β P ι} {o : Object β}

theorem Guarded.append {as before after : List (Act (controllerInterface I β))}
    (h : c.Guarded o as) (hbefore : ¬ AsksResource before) (hafter : ¬ AsksObject after) :
    c.Guarded o (before ++ as ++ after) := by
  have hfront {bs : List (Act (controllerInterface I β))} (hbs : ¬ AsksResource bs) :
      ¬ AsksResource (before ++ bs) := by
    rw [asksResource_append]
    exact not_or.2 ⟨hbefore, hbs⟩
  have hback {bs : List (Act (controllerInterface I β))} (hbs : ¬ AsksObject bs) :
      ¬ AsksObject (bs ++ after) := by
    rw [asksObject_append]
    exact not_or.2 ⟨hbs, hafter⟩
  cases h with
  | found has hb ha hsettled => exact .found (by simp [has]) (hfront hb) (hback ha) hsettled
  | written latest rep has hb ha =>
    exact .written latest rep (by simp [has]) (hfront hb) (hback ha)

theorem Guarded.inSpan {as : List (Act (controllerInterface I β))} (h : c.Guarded o as)
    (span : Span) : c.Guarded o (as.map (Act.inSpan span)) := by
  have hresource {bs : List (Act (controllerInterface I β))} (hbs : ¬ AsksResource bs) :
      ¬ AsksResource (bs.map (Act.inSpan span)) := by
    rwa [(sameWork_inSpan span bs).asksResource]
  have hobject {bs : List (Act (controllerInterface I β))} (hbs : ¬ AsksObject bs) :
      ¬ AsksObject (bs.map (Act.inSpan span)) := by
    rwa [(sameWork_inSpan span bs).asksObject]
  cases h with
  | found has hb ha hsettled =>
    refine .found ?_ (hresource hb) (hobject ha) hsettled
    rw [has, List.map_append, List.map_cons]
    rfl
  | written latest rep has hb ha =>
    refine .written latest rep ?_ (hresource hb) (hobject ha)
    rw [has, List.map_append, List.map_cons, List.map_cons]
    rfl

/-! ### Passes -/

/-- A finalizer step that succeeds is guarded, unless the copy at hand spared it the server. -/
theorem guarded_of_ensure {as : List (Act (controllerInterface I β))}
    (h : Runs (ofClient (c.finalizers.ensure o)) as (some (.ok ())))
    (hnot : o.hasFinalizer c.finalizers.name = false) : c.Guarded o as := by
  have hresource := not_asksResource_ofClient h
  obtain ⟨as', hruns, rfl⟩ := runs_ofClient h
  obtain ⟨before, latest, after, rfl, hend⟩ := Finalizers.end_of_ensure_ok hruns hnot
  rw [List.map_append, asksResource_append] at hresource
  have hbefore := fun hasks => hresource (.inl hasks)
  rw [List.map_append, List.map_cons]
  rcases hend with ⟨hsettled, rfl⟩ | ⟨rep, s, rfl⟩
  · exact .found rfl hbefore idle_nil.not_asksObject hsettled
  · refine .written latest rep rfl hbefore (Idle.not_asksObject ?_)
    intro a ha
    cases List.mem_singleton.1 ha
    exact avoids_signalled s

/-- A resource has its turn only after the finalizer step. -/
theorem guarded_of_createPass {s : ResourceSet I (Object β) P ι}
    {as : List (Act (controllerInterface I β))} {r : Option (Except Error Unit)}
    (h : Runs (c.createPass s o) as r) (hnot : o.hasFinalizer c.finalizers.name = false)
    (hasks : AsksResource as) : c.Guarded o as := by
  rcases h.of_andThen with ⟨-, hcut⟩ | ⟨e, -, hfailed⟩ | ⟨_, as₁, as₂, rfl, hensure, hres⟩
  · exact absurd hasks (not_asksResource_ofClient hcut)
  · exact absurd hasks (not_asksResource_ofClient hfailed)
  · obtain ⟨x, hturns, -⟩ := turns_of_runResources hres
    have hguarded : c.Guarded o ([] ++ as₁ ++ as₂) :=
      (guarded_of_ensure hensure hnot).append idle_nil.not_asksResource hturns.not_asksObject
    simpa using hguarded

/-- In an update pass over a copy without the finalizer no resource has its turn unguarded. -/
theorem guarded_of_asksResource {as : List (Act (controllerInterface I β))}
    {r : Option (Except Error Unit)} (h : Runs (c.reconcile .update o) as r)
    (hnot : o.hasFinalizer c.finalizers.name = false) (hasks : AsksResource as) :
    c.Guarded o as := by
  obtain ⟨as', rfl, hpasses⟩ := passes_of_reconcile h
  rw [(sameWork_inSpan _ as').asksResource] at hasks
  refine Guarded.inSpan ?_ _
  cases hpasses with
  | ambiguous hsets hidle => exact absurd hasks hidle.not_asksResource
  | unhandled hsets hrelease => exact absurd hasks (idle_of_release hrelease).not_asksResource
  | handled hsets hbefore hpass hafter hr =>
    rw [(sameWork_around _ hbefore hafter).asksResource] at hasks
    exact (guarded_of_createPass hpass hnot hasks).append hbefore.not_asksResource
      hafter.not_asksObject

/-! ### What the server keeps -/

theorem hasFinalizer_addFinalizer (o : Object β) (name : String) :
    (o.addFinalizer name).hasFinalizer name = true := by
  refine List.any_eq_true.2 ⟨name, ?_, beq_self_eq_true name⟩
  show name ∈ o.finalizers ++ [name]
  simp

end Controller

/-- If a resource has its turn in an update pass over a copy without the finalizer, then the server
was asked about the object before, and after its last answer it kept an object under the key of the
copy that carried the finalizer or was being deleted. -/
theorem Controller.stored_of_asksResource {c : Controller I β P ι} {o : Object β}
    {course : Course I β} {r : Option (Except Error Unit)}
    (h : Runs (c.reconcile .update o) course.acts r) (hserver : course.Trusted)
    (hnot : o.hasFinalizer c.finalizers.name = false) (hasks : AsksResource course.acts) :
    ∃ (before after : Course I β) (q : ObjectRequest β) (rep : Except Error (Object β))
      (stored : Stored β),
      course = before ++ (.asked (.object q) rep, stored) :: after ∧
        ¬ AsksResource before.acts ∧ ¬ AsksObject after.acts ∧
        ∀ stored', Truthful stored q rep stored' → ∃ kept, stored' o.key = some kept ∧
          (kept.hasFinalizer c.finalizers.name = true ∨ kept.isDeleting = true) := by
  cases guarded_of_asksResource h hnot hasks with
  | @found _ _ latest has hbefore hafter hsettled =>
    obtain ⟨before, rest, rfl, rfl, hrest⟩ := List.map_eq_append_iff.1 has
    obtain ⟨⟨a, stored⟩, after, rfl, rfl, rfl⟩ := List.map_eq_cons_iff.1 hrest
    refine ⟨before, after, _, _, stored, rfl, hbefore, hafter, ?_⟩
    intro stored' htruthful
    cases htruthful with
    | found hfound => exact ⟨latest, hfound, by simpa using hsettled⟩
  | written latest rep has hbefore hafter =>
    obtain ⟨before, rest, rfl, rfl, hrest⟩ := List.map_eq_append_iff.1 has
    obtain ⟨⟨a, seen⟩, rest₁, rfl, rfl, hrest₁⟩ := List.map_eq_cons_iff.1 hrest
    obtain ⟨⟨a, stored⟩, after, rfl, rfl, rfl⟩ := List.map_eq_cons_iff.1 hrest₁
    -- the object that was written has the key under which it was read
    have hkey : latest.key = o.key := by
      obtain ⟨hkeyed, _, htruthful⟩ :=
        hserver (.get o.metadata.namespaceName o.name) (.ok latest) seen (by simp)
      cases htruthful with
      | found hfound => exact hkeyed _ _ hfound
    refine ⟨before ++
      [(.asked (.object (.get o.metadata.namespaceName o.name)) (.ok latest), seen)], after,
      .replace (latest.addFinalizer c.finalizers.name), .ok rep, stored, by simp, ?_, hafter, ?_⟩
    · rw [Course.acts, List.map_append, asksResource_append]
      rintro (hasks | ⟨q, rep, hmem⟩)
      · exact hbefore hasks
      · cases List.mem_singleton.1 hmem
    · intro stored' htruthful
      cases htruthful with
      | swapped _ _ version =>
        refine ⟨(latest.addFinalizer c.finalizers.name).atVersion version, ?_,
          .inl (hasFinalizer_addFinalizer latest _)⟩
        rw [← hkey]
        exact Stored.put_key _ _

/-! ### A pass over an object that is being deleted -/

namespace Boot

/-- A copy of the object without the finalizer. -/
def disowned (deleting : Bool) : Object Unit := (owned "1" deleting).dropFinalizer "operon.dev/demo"

/-- How an update pass over such a copy goes, given what the server keeps. -/
def updated (stored : Stored Unit) :
    Course callOut Unit × Option (Except Error Unit) × Stored Unit :=
  (caller.reconcile .update (disowned false)).perform
    (surroundings (I := callOut) (β := Unit) fun _ => Except.ok ()) default stored

theorem runs_updated (stored : Stored Unit) :
    Runs (caller.reconcile .update (disowned false)) (updated stored).1.acts (updated stored).2.1 :=
  runs_perform _ _ _ _

/-- Over a live object the pass writes the finalizer before the resource creates. -/
theorem stored_of_asksResource_updated :
    ∃ before after q rep stored,
      (updated (.only (disowned false))).1 = before ++ (.asked (.object q) rep, stored) :: after ∧
        ∀ stored', Truthful stored q rep stored' → ∃ kept, stored' "a" = some kept ∧
          (kept.hasFinalizer "operon.dev/demo" = true ∨ kept.isDeleting = true) := by
  have hasks : Controller.AsksResource (updated (.only (disowned false))).1.acts :=
    ⟨(.update, "a"), .ok (), List.mem_of_getElem? (i := 5) rfl⟩
  obtain ⟨before, after, q, rep, stored, hcourse, -, -, hkept⟩ :=
    Controller.stored_of_asksResource (runs_updated _)
      (trusted_perform _ _ _ (Stored.keyed_only _)) rfl hasks
  exact ⟨before, after, q, rep, stored, hcourse, hkept⟩

/-- Over an object that is being deleted the pass creates although the finalizer is nowhere. -/
theorem unguarded :
    Runs (caller.reconcile .update (disowned false)) (updated (.only (disowned true))).1.acts
        (some (.ok ())) ∧
      Course.Trusted (updated (.only (disowned true))).1 ∧
      Controller.AsksResource (updated (.only (disowned true))).1.acts ∧
      ∀ a stored, (a, stored) ∈ (updated (.only (disowned true))).1 →
        ∃ kept, stored "a" = some kept ∧ kept.hasFinalizer "operon.dev/demo" = false := by
  refine ⟨runs_updated _, trusted_perform _ _ _ (Stored.keyed_only _),
    ⟨(.update, "a"), .ok (), List.mem_of_getElem? (i := 3) rfl⟩, ?_⟩
  intro a stored hmem
  have hsame : (updated (.only (disowned true))).1.map Prod.snd =
      List.replicate 6 (.only (disowned true)) := rfl
  have hstored : stored ∈ (updated (.only (disowned true))).1.map Prod.snd :=
    List.mem_map.2 ⟨(a, stored), hmem, rfl⟩
  rw [hsame] at hstored
  rw [List.eq_of_mem_replicate hstored]
  exact ⟨disowned true, rfl, rfl⟩

end Boot

end Reconciler
