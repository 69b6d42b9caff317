import Reconciler.Proofs.Controller.Server

/-!
# The finalizer after the resources

A delete pass gives every resource of the set a turn, in order, and takes the finalizer off only
when all of them succeeded. The first failure ends the pass: no other resource has a turn, and
nothing is asked about the object. Where no set handles the object there is nothing to clean up, and
the finalizer goes at once. Where several do, nothing happens at all.

A pass that fails has changed nothing, whichever part of it failed: what it wrote was refused every
time. So the object still carries the finalizer and the next pass is a pass like the first, which
begins again with the first resource.

## Main definitions

* `Controller.Teardown` : the ways a delete pass can go
* `Controller.Cleans` : a delete pass gave the resources their turns, and what they came to

## Main results

* `Controller.teardown_of_reconcile` : every delete pass goes one of these ways
* `Controller.removal_of_teardown` : what a delete pass asks the server is part of one removal
* `Controller.released_after_cleanup` : the finalizer goes last, and a failed pass changes nothing
-/

namespace Reconciler

open Program

variable {I : Interface} {β P ι : Type}

namespace Controller

variable {c : Controller I β P ι} {o : Object β}

/-! ### The ways a delete pass can go -/

/-- How a delete pass goes, and its result. -/
inductive Teardown (c : Controller I β P ι) (o : Object β) :
    List (Act (controllerInterface I β)) → Option (Except Error Unit) → Prop where
  /-- No set handles the object or several do, and nothing is asked. -/
  | idle {as : List (Act (controllerInterface I β))} {r : Option (Except Error Unit)}
      (hsets : ∀ s, c.sets.filter (fun s => s.handles o) ≠ [s]) (h : Idle as) : Teardown c o as r
  /-- No set handles the object, and the finalizer is taken off. -/
  | unhandled {as : List (Act (controllerInterface I β))} {r : Option (Except Error Unit)}
      (hsets : c.sets.filter (fun s => s.handles o) = [])
      (h : Runs (ofClient (c.finalizers.remove o)) as r) : Teardown c o as r
  /-- A resource failed, or has not finished. -/
  | stopped {s : ResourceSet I (Object β) P ι} (hsets : c.sets.filter (fun s => s.handles o) = [s])
      {before turns after : List (Act (controllerInterface I β))}
      {x r : Option (Except Error Unit)} (hbefore : Idle before)
      (hturns : c.Turns .delete o s.resources turns x) (hx : x ≠ some (.ok ()))
      (hafter : Idle after) (hr : r = none ∨ r = x) : Teardown c o (before ++ turns ++ after) r
  /-- All resources succeeded, and the finalizer is taken off. -/
  | released {s : ResourceSet I (Object β) P ι}
      (hsets : c.sets.filter (fun s => s.handles o) = [s])
      {before turns removal after : List (Act (controllerInterface I β))}
      {x r : Option (Except Error Unit)} (hbefore : Idle before)
      (hturns : c.Turns .delete o s.resources turns (some (.ok ())))
      (h : Runs (ofClient (c.finalizers.remove o)) removal x) (hafter : Idle after)
      (hr : r = none ∨ r = x) : Teardown c o (before ++ turns ++ (removal ++ after)) r

/-- The pass over a set. -/
theorem teardown_of_selected {s : ResourceSet I (Object β) P ι}
    (hsets : c.sets.filter (fun s => s.handles o) = [s])
    {before during after : List (Act (controllerInterface I β))}
    {x r : Option (Except Error Unit)} (hbefore : Idle before)
    (hpass : Runs (c.deletePass s o) during x) (hafter : Idle after) (hr : r = none ∨ r = x) :
    c.Teardown o (before ++ during ++ after) r := by
  -- a run that does not get past the resources is released only in name
  have hstuck {y : Option (Except Error Unit)} (hturns : c.Turns .delete o s.resources during y)
      (hr : r = none ∨ r = y ∧ y ≠ some (.ok ())) : c.Teardown o (before ++ during ++ after) r := by
    by_cases hy : y = some (.ok ())
    · subst hy
      have hnone : r = none := hr.resolve_right fun h => h.2 rfl
      exact .released hsets hbefore hturns (.cut _) hafter (.inl hnone)
    · exact .stopped hsets hbefore hturns hy hafter (hr.imp_right And.left)
  rcases hpass.of_andThen with ⟨rfl, hcut⟩ | ⟨e, hx, hfailed⟩ | ⟨_, turns, removal, rfl, hok, hrest⟩
  · obtain ⟨y, hturns, -⟩ := turns_of_runResources hcut
    exact hstuck hturns (.inl (hr.elim id id))
  · obtain ⟨y, hturns, hy⟩ := turns_of_runResources hfailed
    obtain rfl : y = some (.error e) := (hy.resolve_left (by simp)).symm
    refine hstuck hturns ?_
    rcases hr with hr | rfl
    · exact .inl hr
    · exact hx.imp_right fun hx => ⟨hx, by simp⟩
  · obtain ⟨y, hturns, hy⟩ := turns_of_runResources hok
    obtain rfl : y = some (.ok ()) := (hy.resolve_left (by simp)).symm
    have hteardown := Teardown.released hsets hbefore hturns hrest hafter hr
    simpa using hteardown

theorem teardown_of_reconcile {as : List (Act (controllerInterface I β))}
    {r : Option (Except Error Unit)} (h : Runs (c.reconcile .delete o) as r) :
    ∃ as', as = as'.map (Act.inSpan ⟨.delete, c.name, o.key⟩) ∧ c.Teardown o as' r := by
  obtain ⟨as, rfl, hpasses⟩ := passes_of_reconcile h
  refine ⟨as, rfl, ?_⟩
  cases hpasses with
  | ambiguous hsets hidle =>
    refine .idle (fun s hs => ?_) hidle
    simp [hs] at hsets
  | unhandled hsets hrelease =>
    change Runs (if o.hasFinalizer c.finalizers.name then _ else _) as r at hrelease
    split at hrelease
    · exact .unhandled hsets hrelease
    · rw [hrelease.of_done.1]
      exact .idle (by simp [hsets]) idle_nil
  | handled hsets hbefore hpass hafter hr =>
    exact teardown_of_selected hsets hbefore hpass hafter hr

/-! ### What is asked about the object -/

/-- What a delete pass asks the server is asked by one removal of the finalizer, and if the pass
fails after all then so does the removal. -/
theorem removal_of_teardown {as : List (Act (controllerInterface I β))}
    {r : Option (Except Error Unit)} (h : c.Teardown o as r) :
    ∃ removal x, Runs (c.finalizers.remove o) removal x ∧
      (∀ (q : ObjectRequest β) rep, .asked (.object q) rep ∈ as ↔
        Act.asked (I := objectClient β) q rep ∈ removal) ∧
        ∀ e, r = some (.error e) → removal = [] ∨ x = r := by
  have hnothing {as : List (Act (controllerInterface I β))} (has : ¬ AsksObject as) :
      ∃ removal x, Runs (c.finalizers.remove o) removal x ∧
        (∀ (q : ObjectRequest β) rep, .asked (.object q) rep ∈ as ↔
          Act.asked (I := objectClient β) q rep ∈ removal) ∧
          ∀ e, r = some (.error e) → removal = [] ∨ x = r := by
    refine ⟨[], none, .cut _, fun q rep => ?_, fun e _ => .inl rfl⟩
    exact iff_of_false (fun hmem => has ⟨q, rep, hmem⟩) List.not_mem_nil
  cases h with
  | idle hsets hidle => exact hnothing hidle.not_asksObject
  | unhandled hsets h =>
    obtain ⟨removal, hruns, rfl⟩ := runs_ofClient h
    exact ⟨removal, r, hruns, fun q rep => asked_mem_map_object, fun e _ => .inr rfl⟩
  | stopped hsets hbefore hturns hx hafter hr =>
    -- the removal is what follows the resources, and it was never begun
    refine hnothing ?_
    rw [asksObject_append, asksObject_append]
    exact not_or.2 ⟨not_or.2 ⟨hbefore.not_asksObject, hturns.not_asksObject⟩, hafter.not_asksObject⟩
  | @released s hsets before turns acts after x r hbefore hturns h hafter hr =>
    obtain ⟨removal, hruns, rfl⟩ := runs_ofClient h
    refine ⟨removal, x, hruns, fun q rep => ?_, ?_⟩
    · have hfirst : .asked (.object q) rep ∉ before ++ turns := by
        intro hmem
        rcases List.mem_append.1 hmem with hmem | hmem
        · exact hbefore.not_asksObject ⟨q, rep, hmem⟩
        · exact hturns.not_asksObject ⟨q, rep, hmem⟩
      have hlast : .asked (.object q) rep ∉ after :=
        fun hmem => hafter.not_asksObject ⟨q, rep, hmem⟩
      rw [List.mem_append, or_iff_right hfirst, List.mem_append, or_iff_left hlast]
      exact asked_mem_map_object
    · rintro e rfl
      exact .inr (hr.resolve_left (by simp)).symm

/-! ### The turns of the resources -/

/-- Between acts that are no work the resources had their turns, which came to `x`. Only if all of
them succeeded is anything else asked after that, and never of a resource. -/
def Cleans (c : Controller I β P ι) (o : Object β) (s : ResourceSet I (Object β) P ι)
    (as : List (Act (controllerInterface I β))) (x : Option (Except Error Unit)) : Prop :=
  ∃ before turns after,
    as = (before ++ turns ++ after).map (Act.inSpan ⟨.delete, c.name, o.key⟩) ∧
      Idle before ∧ c.Turns .delete o s.resources turns x ∧ ¬ AsksObject turns ∧
      ¬ AsksResource after ∧ (x = some (.ok ()) ∨ Idle after)

theorem Teardown.cleans {as : List (Act (controllerInterface I β))} {r : Option (Except Error Unit)}
    (h : c.Teardown o as r) {s : ResourceSet I (Object β) P ι}
    (hs : c.sets.filter (fun s => s.handles o) = [s]) :
    ∃ x, c.Cleans o s (as.map (Act.inSpan ⟨.delete, c.name, o.key⟩)) x ∧
      ∀ e, x = some (.error e) → r = none ∨ r = some (.error e) := by
  cases h with
  | idle hsets => exact absurd hs (hsets s)
  | unhandled hsets => simp [hsets] at hs
  | @stopped s' hsets before turns after x r hbefore hturns hx hafter hr =>
    obtain rfl : s' = s := by simpa [hsets] using hs
    refine ⟨x, ⟨before, turns, after, rfl, hbefore, hturns, hturns.not_asksObject,
      hafter.not_asksResource, .inr hafter⟩, ?_⟩
    rintro e rfl
    exact hr
  | @released s' hsets before turns removal after x r hbefore hturns h hafter hr =>
    obtain rfl : s' = s := by simpa [hsets] using hs
    have hrest : ¬ AsksResource (removal ++ after) := by
      rw [asksResource_append]
      exact not_or.2 ⟨not_asksResource_ofClient h, hafter.not_asksResource⟩
    refine ⟨some (.ok ()), ⟨before, turns, removal ++ after, rfl, hbefore, hturns,
      hturns.not_asksObject, hrest, .inl rfl⟩, ?_⟩
    rintro e ⟨⟩

/-- Nothing is asked about the object if a resource failed. -/
theorem Cleans.ok_of_asksObject {s : ResourceSet I (Object β) P ι}
    {as : List (Act (controllerInterface I β))} {x : Option (Except Error Unit)}
    (h : c.Cleans o s as x) (hasks : AsksObject as) : x = some (.ok ()) := by
  obtain ⟨before, turns, after, rfl, hbefore, -, hturns, -, hstop⟩ := h
  rw [(sameWork_inSpan _ _).asksObject, asksObject_append, asksObject_append] at hasks
  rcases hasks with (hasks | hasks) | hasks
  · exact absurd hasks hbefore.not_asksObject
  · exact absurd hasks hturns
  · exact hstop.resolve_right fun hafter => hafter.not_asksObject hasks

/-- A resource has a turn only if one set handles the object. -/
theorem Teardown.one_of_asksResource {as : List (Act (controllerInterface I β))}
    {r : Option (Except Error Unit)} (h : c.Teardown o as r) (hasks : AsksResource as) :
    ∃ s, c.sets.filter (fun s => s.handles o) = [s] := by
  cases h with
  | idle hsets hidle => exact absurd hasks hidle.not_asksResource
  | unhandled hsets h => exact absurd hasks (not_asksResource_ofClient h)
  | @stopped s hsets => exact ⟨s, hsets⟩
  | @released s hsets => exact ⟨s, hsets⟩

/-- The object is asked about only if at most one set handles it. -/
theorem Teardown.some_of_asksObject {as : List (Act (controllerInterface I β))}
    {r : Option (Except Error Unit)} (h : c.Teardown o as r) (hasks : AsksObject as) :
    c.sets.filter (fun s => s.handles o) = [] ∨
      ∃ s, c.sets.filter (fun s => s.handles o) = [s] := by
  cases h with
  | idle hsets hidle => exact absurd hasks hidle.not_asksObject
  | unhandled hsets => exact .inl hsets
  | @stopped s hsets => exact .inr ⟨s, hsets⟩
  | @released s hsets => exact .inr ⟨s, hsets⟩

/-- A write of a removal is of an object that was read with the finalizer, without it. -/
theorem dropped_of_remove {removal : List (Act (objectClient β))} {x : Option (Except Error Unit)}
    (h : Runs (c.finalizers.remove o) removal x) {new : Object β} {rep : Except Error (Object β)}
    (hmem : Act.asked (I := objectClient β) (.replace new) rep ∈ removal) :
    ∃ latest, Act.asked (I := objectClient β) (.get o.metadata.namespaceName o.name) (.ok latest) ∈
        removal ∧ latest.hasFinalizer c.finalizers.name = true ∧
      new = latest.dropFinalizer c.finalizers.name := by
  obtain ⟨before, after, rfl⟩ := List.append_of_mem hmem
  have hrereads : Edit.drop.Rereads c.finalizers o _ := Edit.drop.rereads c.finalizers o _ x h
  obtain ⟨earlier, latest, rfl, hdue, hnew⟩ := hrereads.read_of_write rfl
  exact ⟨latest, by simp, hdue, hnew⟩

/-- A resource has a turn only if one set handles the object. The server is asked about the object
only if none does, or after all resources of the one that does had their turn, in order and once
each, and succeeded; the first failure is the result, and ends all work. What is written is an
object that was just read, without the finalizer. And a pass that fails has written nothing: what
the server keeps is as it was. -/
theorem released_after_cleanup {as : List (Act (controllerInterface I β))}
    {r : Option (Except Error Unit)} (h : Runs (c.reconcile .delete o) as r) :
    (AsksResource as → ∃ s, c.sets.filter (fun s => s.handles o) = [s]) ∧
      (AsksObject as → c.sets.filter (fun s => s.handles o) = [] ∨
        ∃ s, c.sets.filter (fun s => s.handles o) = [s] ∧ c.Cleans o s as (some (.ok ()))) ∧
      (∀ s, c.sets.filter (fun s => s.handles o) = [s] → ∃ x, c.Cleans o s as x ∧
        ∀ e, x = some (.error e) → r = none ∨ r = some (.error e)) ∧
      (∀ new rep, .asked (.object (.replace new)) rep ∈ as → ∃ latest,
        .asked (.object (.get o.metadata.namespaceName o.name)) (.ok latest) ∈ as ∧
          latest.hasFinalizer c.finalizers.name = true ∧
          new = latest.dropFinalizer c.finalizers.name) ∧
      ∀ e, r = some (.error e) → ∀ (q : ObjectRequest β) rep, .asked (.object q) rep ∈ as →
        (∀ new kept, q = .replace new → rep ≠ .ok kept) ∧
          ∀ stored stored', Truthful stored q rep stored' → stored' = stored := by
  obtain ⟨as, rfl, hteardown⟩ := teardown_of_reconcile h
  have hspan := sameWork_inSpan ⟨.delete, c.name, o.key⟩ as
  obtain ⟨removal, x, hremoval, hasked, hfailed⟩ := removal_of_teardown hteardown
  refine ⟨fun hasks => ?resource, fun hasks => ?object, fun s => hteardown.cleans, ?written,
    ?failed⟩
  case resource => exact hteardown.one_of_asksResource (hspan.asksResource.1 hasks)
  case object =>
    refine (hteardown.some_of_asksObject (hspan.asksObject.1 hasks)).imp_right ?_
    rintro ⟨s, hs⟩
    obtain ⟨x, hcleans, -⟩ := hteardown.cleans hs
    obtain rfl := hcleans.ok_of_asksObject hasks
    exact ⟨s, hs, hcleans⟩
  case written =>
    intro new rep hmem
    obtain ⟨latest, hread, hhas, hnew⟩ :=
      dropped_of_remove hremoval ((hasked _ rep).1 (asked_mem_map_inSpan.1 hmem))
    exact ⟨latest, asked_mem_map_inSpan.2 ((hasked _ _).2 hread), hhas, hnew⟩
  case failed =>
    rintro e rfl q rep hmem
    have hmem' := (hasked q rep).1 (asked_mem_map_inSpan.1 hmem)
    have hrefused (new kept : Object β) (hq : q = .replace new) : rep ≠ .ok kept := by
      rintro rfl
      subst hq
      rcases hfailed e rfl with rfl | rfl
      · exact List.not_mem_nil hmem'
      · exact Finalizers.not_swapped_of_remove_error hremoval new kept hmem'
    refine ⟨hrefused, ?_⟩
    intro stored stored' htruthful
    cases htruthful with
    | found | failed => rfl
    | swapped _ _ _ kept => exact absurd rfl (hrefused _ kept rfl)

end Controller

/-! ### A delete pass over two resources -/

namespace Boot

/-- Two resources that call out under their own names. -/
def pair : Controller callOut Unit Unit String where
  name := caller.name
  kind := caller.kind
  registry := { lookup := fun name =>
    { name := name, ensure := fun pass _ => .request (I := callOut) (pass, name) } }
  sets := [⟨fun _ => true, [.basic "first", .basic "second"]⟩]
  finalizers := caller.finalizers
  metrics := caller.metrics
  informer := caller.informer
  schema := caller.schema
  publishes := false

/-- How a delete pass over an object goes if the server answers writes in a given way. -/
def deleted (written : Object Unit → Except Error (Object Unit)) :
    List (Act (controllerInterface callOut Unit) × Unit) × Option (Except Error Unit) × Unit :=
  let reply : (q : (controllerInterface callOut Unit).Request) →
      (controllerInterface callOut Unit).Reply q
    | .object (.get _ _) => (.ok (owned "2" true) : Except Error (Object Unit))
    | .object (.replace new) => written new
    | .resource _ => (.ok () : Except Error Unit)
    | .publish _ _ => ()
  (pair.reconcile .delete (owned "2" true)).perform (fun q s => (reply q, s)) default ()

theorem runs_deleted (written : Object Unit → Except Error (Object Unit)) :
    Runs (pair.reconcile .delete (owned "2" true)) ((deleted written).1.map Prod.fst)
      (deleted written).2.1 :=
  runs_perform _ _ _ _

/-- Both resources are cleaned up before the finalizer is taken off, and if the server refuses that
then nothing was written. -/
theorem released_after_cleanup_pair :
    (∃ s, pair.Cleans (owned "2" true) s ((deleted .ok).1.map Prod.fst) (some (.ok ()))) ∧
      (deleted fun new => .error (.conflict new.key)).2.1 = some (.error (.conflict "a")) ∧
        ∀ new kept, .asked (.object (.replace new)) (.ok kept) ∉
          (deleted fun new => .error (.conflict new.key)).1.map Prod.fst := by
  have hasks : Controller.AsksObject ((deleted .ok).1.map Prod.fst) :=
    ⟨.get none "a", .ok (owned "2" true), List.mem_of_getElem? (i := 4) rfl⟩
  have hresult : (deleted fun new => .error (.conflict new.key)).2.1 =
      some (.error (.conflict "a")) := rfl
  refine ⟨?_, hresult, ?_⟩
  · obtain ⟨-, hcleaned, -⟩ := Controller.released_after_cleanup (runs_deleted .ok)
    rcases hcleaned hasks with hs | ⟨s, -, hcleans⟩
    · cases hs
    · exact ⟨s, hcleans⟩
  · obtain ⟨-, -, -, -, hfailed⟩ := Controller.released_after_cleanup
      (runs_deleted fun new => .error (.conflict new.key))
    intro new kept hmem
    exact (hfailed _ hresult _ _ hmem).1 new kept rfl rfl

end Boot

end Reconciler
