import Reconciler.Proofs.Controller.Release
import Reconciler.Proofs.Controller.Report

/-!
# One set, and its resources in order

A controller asks each of its sets once whether it handles the object, and whatever the sets answer,
only the resources of a single set that does are run: one after the other, up to the first that
fails. If several sets handle the object then no resource is run, the server is not asked about the
object, and no pass is measured.

In the runs of `Controller.reconcile` the answers of the sets are put in already, and the resources
ask questions of their own. So what a controller evaluates and invokes is read off the runs of
`Controller.asking`, with the sets and the resources free to answer anything.

## Main definitions

* `Controller.consulted`, `Controller.invoked` : the sets that were asked, and the resources that
  were run
* `Controller.Exclusive` : what every run of such a pass keeps to

## Main results

* `Controller.exclusive_routing` : at most one set has its resources run, in order
-/

namespace Reconciler

open Program

namespace Controller

variable {I : Interface} {β P ι : Type} {c : Controller I β P ι} {pass : Pass} {o : Object β}

/-- If several sets handle the object then the error is what the pass comes to. -/
theorem exists_runs_of_several (hmany : 1 < (c.sets.filter fun s => s.handles o).length) :
    ∃ as, Runs (c.reconcile pass o) as
      (some (.error (ambiguity (c.sets.filter fun s => s.handles o).length o))) := by
  rw [reconcile_eq, passOver_of_several hmany]
  by_cases hpublishes : c.publishes = true
  · have hpublish (f : Failure) : c.publish o f =
        .request (I := controllerInterface I β) (.publish (o.reference c.kind) f) :=
      if_pos hpublishes
    rw [hpublish]
    exact ⟨_, .step (.signal _ _) (.step (.ask () _) (.done _))⟩
  · have hpublish (f : Failure) : c.publish o f = .done () := if_neg hpublishes
    rw [hpublish]
    exact ⟨_, .step (.signal _ _) (.done _)⟩

/-! ### What is asked -/

section

variable {as bs : List (Act (controllerInterface (turns I (Object β) P ι) β))}

/-- The sets that were asked, with their answers. -/
def consulted (as : List (Act (controllerInterface (turns I (Object β) P ι) β))) :
    List (ResourceSet I (Object β) P ι × Bool) :=
  as.filterMap fun
    | .asked (.resource (.handles s _)) yes => some (s, yes)
    | _ => none

/-- The sets that said that they handle the object. -/
def found (as : List (Act (controllerInterface (turns I (Object β) P ι) β))) :
    List (ResourceSet I (Object β) P ι) :=
  ((consulted as).filter Prod.snd).map Prod.fst

/-- The resources that were run, with their results. -/
def invoked (as : List (Act (controllerInterface (turns I (Object β) P ι) β))) :
    List (Resource I (Object β) P ι × Except Error Unit) :=
  as.filterMap fun
    | .asked (.resource (.run _ r _)) x => some (r, x)
    | _ => none

/-- Something was measured. -/
def Measures (as : List (Act (controllerInterface (turns I (Object β) P ι) β))) : Prop :=
  ∃ m, .signalled (.measure m) ∈ as

/-- Ask these sets and get these answers. -/
def asks (o : Object β) (answers : List (ResourceSet I (Object β) P ι × Bool)) :
    List (Act (controllerInterface (turns I (Object β) P ι) β)) :=
  answers.map fun x => .asked (.resource (.handles x.1 o)) x.2

/-- Run these resources and get these results. -/
def trials (pass : Pass) (o : Object β)
    (runs : List (Resource I (Object β) P ι × Except Error Unit)) :
    List (Act (controllerInterface (turns I (Object β) P ι) β)) :=
  runs.map fun x => .asked (.resource (.run pass x.1 o)) x.2

@[simp] theorem consulted_append : consulted (as ++ bs) = consulted as ++ consulted bs :=
  List.filterMap_append

@[simp] theorem invoked_append : invoked (as ++ bs) = invoked as ++ invoked bs :=
  List.filterMap_append

theorem handles_of_mem_asks {answers : List (ResourceSet I (Object β) P ι × Bool)}
    {a : Act (controllerInterface (turns I (Object β) P ι) β)} (h : a ∈ asks o answers) :
    ∃ s yes, a = .asked (.resource (.handles s o)) yes := by
  obtain ⟨x, -, rfl⟩ := List.mem_map.1 h
  exact ⟨x.1, x.2, rfl⟩

theorem consulted_inSpan (span : Span) : consulted (as.map (Act.inSpan span)) = consulted as :=
  filterMap_inSpan (fun _ => rfl) span as

theorem invoked_inSpan (span : Span) : invoked (as.map (Act.inSpan span)) = invoked as :=
  filterMap_inSpan (fun _ => rfl) span as

theorem invoked_of_not_asksResource (h : ¬ AsksResource as) : invoked as = [] := by
  refine List.filterMap_eq_nil_iff.2 fun a ha => ?_
  rcases a with s | d | m | ⟨_ | q | _, rep⟩
  case asked.resource => exact absurd ⟨q, rep, ha⟩ h
  all_goals rfl

@[simp] theorem consulted_asks (answers : List (ResourceSet I (Object β) P ι × Bool)) :
    consulted (asks o answers) = answers := by
  rw [consulted, asks, List.filterMap_map]
  exact List.filterMap_some

@[simp] theorem invoked_asks (answers : List (ResourceSet I (Object β) P ι × Bool)) :
    invoked (asks o answers) = [] := by
  rw [invoked, asks, List.filterMap_map]
  exact List.filterMap_eq_nil_iff.2 fun _ _ => rfl

@[simp] theorem invoked_trials (runs : List (Resource I (Object β) P ι × Except Error Unit)) :
    invoked (trials pass o runs) = runs := by
  rw [invoked, trials, List.filterMap_map]
  exact List.filterMap_some

end

/-- The sets are asked in order, once each, and nothing else is. -/
theorem runs_matching {sets : List (ResourceSet I (Object β) P ι)}
    {as : List (Act (controllerInterface (turns I (Object β) P ι) β))}
    {r : Option (List (ResourceSet I (Object β) P ι))}
    (h : Runs (ofResource (matching o sets)) as r) :
    ∃ answers, as = asks o answers ∧ answers.map Prod.fst <+: sets ∧
      ∀ found, r = some found → answers.map Prod.fst = sets ∧
        found = (answers.filter Prod.snd).map Prod.fst := by
  induction sets generalizing as r with
  | nil =>
    obtain ⟨rfl, hr⟩ := h.of_done
    refine ⟨[], rfl, List.prefix_refl _, ?_⟩
    rintro found rfl
    exact ⟨rfl, by simpa using hr⟩
  | cons s sets ih =>
    rcases h.cut_or_ask with ⟨rfl, rfl⟩ | ⟨(yes : Bool), as, rfl, hrest⟩
    · exact ⟨[], rfl, List.nil_prefix, by simp⟩
    have hrest' : Runs (ofResource ((matching o sets).bind fun found =>
        .done (if yes then s :: found else found))) as r := hrest
    rw [ofResource_bind] at hrest'
    rcases hrest'.of_bind with ⟨rfl, hcut⟩ | ⟨found, as, as', rfl, hothers, hdone⟩
    · obtain ⟨answers, rfl, hprefix, -⟩ := ih hcut
      exact ⟨(s, yes) :: answers, rfl, List.cons_prefix_cons.2 ⟨rfl, hprefix⟩, by simp⟩
    · obtain ⟨answers, rfl, hprefix, hall⟩ := ih hothers
      obtain ⟨hsets, rfl⟩ := hall found rfl
      obtain ⟨rfl, hr⟩ := hdone.of_done
      refine ⟨(s, yes) :: answers, by simp [asks], List.cons_prefix_cons.2 ⟨rfl, hprefix⟩, ?_⟩
      rintro found rfl
      obtain rfl := Option.some.inj (hr.resolve_left (by simp))
      exact ⟨by simp [hsets], by cases yes <;> simp⟩

/-! ### What a pass keeps to -/

/-- Resources are run in order, up to the first that fails, and what they came to. -/
inductive InOrder {ρ : Type} : List ρ → List (ρ × Except Error Unit) → Option (Except Error Unit) →
    Prop where
  /-- The run is looked at before its end. -/
  | cut (rs : List ρ) : InOrder rs [] none
  /-- All resources were run. -/
  | all : InOrder [] [] (some (.ok ()))
  /-- One succeeds, and the others follow. -/
  | next {r : ρ} {rs : List ρ} {runs : List (ρ × Except Error Unit)}
      {x : Option (Except Error Unit)} (h : InOrder rs runs x) :
      InOrder (r :: rs) ((r, .ok ()) :: runs) x
  /-- One fails, and no other is run. -/
  | failed (r : ρ) (rs : List ρ) (e : Error) :
      InOrder (r :: rs) [(r, .error e)] (some (.error e))

/-- Only resources of the list are run. -/
theorem InOrder.isPrefix {ρ : Type} {rs : List ρ} {runs : List (ρ × Except Error Unit)}
    {x : Option (Except Error Unit)} (h : InOrder rs runs x) : runs.map Prod.fst <+: rs := by
  induction h with
  | cut => exact List.nil_prefix
  | all => exact List.nil_prefix
  | next _ ih => exact List.cons_prefix_cons.2 ⟨rfl, ih⟩
  | failed => exact List.cons_prefix_cons.2 ⟨rfl, List.nil_prefix⟩

/-- The passes of the resources of a set are asked for in order. -/
theorem runs_runResources {s : ResourceSet I (Object β) P ι}
    {as : List (Act (controllerInterface (turns I (Object β) P ι) β))}
    {x : Option (Except Error Unit)}
    (h : Runs (c.asked.runResources pass s.asked o) as x) :
    ∃ runs, as = trials pass o runs ∧ ∃ y, InOrder s.resources runs y ∧ (x = none ∨ x = y) := by
  rw [runResources, ResourceSet.asked] at h
  generalize s.resources = rs at h ⊢
  induction rs generalizing as with
  | nil =>
    obtain ⟨rfl, hx⟩ := h.of_done
    exact ⟨[], rfl, _, .all, hx⟩
  | cons r rs ih =>
    have hfirst {as : List (Act (controllerInterface (turns I (Object β) P ι) β))}
        {y : Option (Except Error Unit)}
        (h : Runs (ofResource (c.asked.registry.ensure pass (.basic r) o)) as y) :
        as = [] ∧ y = none ∨ ∃ z, as = trials pass o [(r, z)] ∧ (y = none ∨ y = some z) := by
      rcases h.cut_or_ask with hcut | ⟨z, as, rfl, hdone⟩
      · exact .inl hcut
      · obtain ⟨rfl, hy⟩ := hdone.of_done
        exact .inr ⟨z, rfl, hy⟩
    rcases h.of_andThen with ⟨rfl, hcut⟩ | ⟨e, hx, hfailed⟩ | ⟨u, as, bs, rfl, hok, hrest⟩
    · rcases hfirst hcut with ⟨rfl, -⟩ | ⟨z, rfl, -⟩
      · exact ⟨[], rfl, _, .cut _, .inl rfl⟩
      · rcases z with e | u
        · exact ⟨_, rfl, _, .failed r rs e, .inl rfl⟩
        · exact ⟨_, rfl, _, .next (.cut rs), .inl rfl⟩
    · rcases hfirst hfailed with ⟨-, hnone⟩ | ⟨z, rfl, hz⟩
      · cases hnone
      · obtain rfl : .error e = z := Option.some.inj (hz.resolve_left (by simp))
        exact ⟨_, rfl, _, .failed r rs e, hx⟩
    · rcases hfirst hok with ⟨-, hnone⟩ | ⟨z, rfl, hz⟩
      · cases hnone
      · obtain rfl : .ok u = z := Option.some.inj (hz.resolve_left (by simp))
        obtain ⟨runs, rfl, y, horder, hx⟩ := ih hrest
        exact ⟨_, rfl, y, .next horder, hx⟩

/-- The finalizer is on the copy at hand, or the server settled it. -/
def Readied (c : Controller I β P ι) (o : Object β)
    (as : List (Act (controllerInterface (turns I (Object β) P ι) β))) : Prop :=
  o.hasFinalizer c.finalizers.name = true ∨
    ∃ q rep, .asked (.object q) rep ∈ as ∧ c.finalizers.Settles q rep

/-- What a pass keeps to when certain sets handle the object. -/
structure Keeps (c : Controller I β P ι) (pass : Pass) (o : Object β)
    (sets : List (ResourceSet I (Object β) P ι))
    (as : List (Act (controllerInterface (turns I (Object β) P ι) β)))
    (r : Option (Except Error Unit)) : Prop where
  /-- A resource is run only if it belongs to the one set that handles the object. -/
  one : ∀ x ∈ invoked as, ∃ s, sets = [s] ∧ x.1 ∈ s.resources
  /-- If several do then no resource is run, the server is not asked, so the finalizer stays as it
  is, no pass is measured, and the error tells how many there are. -/
  several : 1 < sets.length → invoked as = [] ∧ ¬ AsksObject as ∧ ¬ Measures as ∧
    ∀ x, r = some x → x = .error (ambiguity sets.length o)
  /-- The resources are run in order, up to the first that fails. -/
  inOrder : ∀ s, sets = [s] → ∃ x, InOrder s.resources (invoked as) x
  /-- In an update pass that is all there is to do once the finalizer is on; and if it cannot be put
  on then no resource is run. -/
  update : pass = .update → ∀ s, sets = [s] → ∀ x, r = some x →
    c.Readied o as ∧ InOrder s.resources (invoked as) (some x) ∨
      ¬ c.Readied o as ∧ invoked as = [] ∧ ∃ e, x = .error e

variable {sets : List (ResourceSet I (Object β) P ι)}
  {as bs : List (Act (controllerInterface (turns I (Object β) P ι) β))}
  {x r : Option (Except Error Unit)}

/-- Around a pass other things may happen. -/
theorem Keeps.of_same (h : c.Keeps pass o sets as x) (hinvoked : invoked bs = invoked as)
    (hobject : ∀ q rep, .asked (.object q) rep ∈ bs ↔ .asked (.object q) rep ∈ as)
    (hmeasures : 1 < sets.length → Measures bs → Measures as) (hr : r = none ∨ r = x) :
    c.Keeps pass o sets bs r := by
  have hreadied : c.Readied o bs ↔ c.Readied o as :=
    or_congr_right (exists_congr fun q => exists_congr fun rep => and_congr_left' (hobject q rep))
  have hasks : AsksObject bs ↔ AsksObject as :=
    exists_congr fun q => exists_congr fun rep => hobject q rep
  refine ⟨?_, fun hmany => ?_, ?_, ?_⟩
  · rw [hinvoked]
    exact h.one
  · obtain ⟨hnone, hnotAsked, hnotMeasured, hresult⟩ := h.several hmany
    rw [hinvoked, hasks]
    refine ⟨hnone, hnotAsked, fun hm => hnotMeasured (hmeasures hmany hm), fun y hy => ?_⟩
    exact hresult y ((hr.resolve_left (by simp [hy])).symm.trans hy)
  · rw [hinvoked]
    exact h.inOrder
  · intro hpass s hs y hy
    rw [hinvoked, hreadied]
    exact h.update hpass s hs y ((hr.resolve_left (by simp [hy])).symm.trans hy)

/-- The same goes for spans. -/
theorem Keeps.inSpan (h : c.Keeps pass o sets as r) (span : Span) :
    c.Keeps pass o sets (as.map (Act.inSpan span)) r := by
  refine h.of_same (invoked_inSpan span) (fun q rep => asked_mem_map_inSpan) (fun _ => ?_)
    (.inr rfl)
  rintro ⟨m, hmem⟩
  obtain ⟨a, ha, heq⟩ := List.mem_map.1 hmem
  rcases a with ⟨⟨e, _ | sp⟩ | m'⟩ | d | m' | ⟨q, rep⟩ <;> cases heq
  exact ⟨m, ha⟩

/-- Without a turn for a resource, and unless several sets handle the object. -/
theorem keeps_of_not_asksResource (h : ¬ AsksResource as) (hsets : sets = []) :
    c.Keeps pass o sets as r := by
  subst hsets
  refine ⟨?_, by simp, by simp, by simp⟩
  rw [invoked_of_not_asksResource h]
  simp

/-- What several sets that handle the object lead to. -/
theorem keeps_of_several {e : Error} {f : Failure} (hmany : 1 < sets.length)
    (he : e = ambiguity sets.length o)
    (h : Runs ((Program.log (.objectAmbiguous e)).bind fun _ =>
      (c.asked.publish o f).bind fun _ => .done (.error e)) as r) :
    c.Keeps pass o sets as r := by
  have hidle : Idle as :=
    ((only_log avoids_signalled _).bind fun _ =>
      (c.asked.only_publish not_isWork_publish o f).bind fun _ => only_done _) as r h
  have hlog : Only (fun a => ∀ m, a ≠ .signalled (.measure m))
      (Program.log (.objectAmbiguous e) : Task (turns I (Object β) P ι) β Unit) :=
    only_signal (by simp) (only_done _)
  have hpublish : Only (fun a => ∀ m, a ≠ .signalled (.measure m))
      (c.asked.publish o f) :=
    only_ite (only_ask (by simp) fun _ => only_done _) (only_done _)
  have hmeasures := (hlog.bind fun _ => hpublish.bind fun _ => only_done _) as r h
  have hone : ∀ s, sets ≠ [s] := by
    rintro s rfl
    simp at hmany
  refine ⟨?_, fun _ => ⟨invoked_of_not_asksResource hidle.not_asksResource, hidle.not_asksObject,
    ?_, ?_⟩, fun s hs => absurd hs (hone s), fun _ s hs => absurd hs (hone s)⟩
  · rw [invoked_of_not_asksResource hidle.not_asksResource]
    simp
  · rintro ⟨m, hmem⟩
    exact hmeasures _ hmem m rfl
  · rintro x rfl
    obtain ⟨_, _, _, -, -, h⟩ := h.complete_of_bind
    obtain ⟨_, _, _, -, -, h⟩ := h.complete_of_bind
    rw [← he]
    simpa using h.of_done.2

/-- The pass over the one set that handles the object. -/
theorem keeps_of_runPass {s : ResourceSet I (Object β) P ι}
    (h : Runs (c.asked.runPass pass s.asked o) as x) :
    c.Keeps pass o [s] as x := by
  -- the resources belong to the set, whatever comes of them
  have hkeeps {runs : List (Resource I (Object β) P ι × Except Error Unit)}
      (hinvoked : invoked as = runs) {y : Option (Except Error Unit)}
      (horder : InOrder s.resources runs y)
      (hupdate : pass = .update → ∀ z, x = some z →
        c.Readied o as ∧ InOrder s.resources runs (some z) ∨
          ¬ c.Readied o as ∧ runs = [] ∧ ∃ e, z = .error e) : c.Keeps pass o [s] as x := by
    subst hinvoked
    refine ⟨fun i hi => ⟨s, rfl, horder.isPrefix.subset (List.mem_map_of_mem hi)⟩, by simp, ?_, ?_⟩
    · rintro s' ⟨⟩
      exact ⟨y, horder⟩
    · rintro hpass s' ⟨⟩
      exact hupdate hpass
  cases pass with
  | update =>
    rcases h.of_andThen with ⟨rfl, hcut⟩ | ⟨e, hx, hfailed⟩ | ⟨u, as, bs, rfl, hok, hrest⟩
    · have hnone := invoked_of_not_asksResource (runs_ensure hcut).1
      exact hkeeps hnone (.cut _) (by simp)
    · obtain ⟨hnot, hsettles⟩ := runs_ensure hfailed
      refine hkeeps (invoked_of_not_asksResource hnot) (.cut _) ?_
      rintro - z rfl
      obtain rfl : z = .error e := Option.some.inj (hx.resolve_left (by simp))
      exact .inr ⟨fun hready => absurd ((hsettles _ rfl).2 hready) (by simp), rfl, e, rfl⟩
    · obtain ⟨hnot, hsettles⟩ := runs_ensure hok
      obtain ⟨runs, rfl, y, horder, hx⟩ := runs_runResources hrest
      have hinvoked : invoked (as ++ trials .update o runs) = runs := by
        simp [invoked_of_not_asksResource hnot]
      refine hkeeps hinvoked horder ?_
      rintro - z rfl
      obtain rfl := hx.resolve_left (by simp)
      refine .inl ⟨((hsettles _ rfl).1 rfl).imp_right ?_, horder⟩
      rintro ⟨q, rep, hmem, hq⟩
      exact ⟨q, rep, List.mem_append_left _ hmem, hq⟩
  | delete =>
    rcases h.of_andThen with ⟨rfl, hcut⟩ | ⟨e, hx, hfailed⟩ | ⟨u, as, bs, rfl, hok, hrest⟩
    · obtain ⟨runs, rfl, y, horder, -⟩ := runs_runResources hcut
      exact hkeeps (invoked_trials runs) horder (by simp)
    · obtain ⟨runs, rfl, y, horder, -⟩ := runs_runResources hfailed
      exact hkeeps (invoked_trials runs) horder (by simp)
    · obtain ⟨runs, rfl, y, horder, -⟩ := runs_runResources hok
      have hinvoked : invoked (trials .delete o runs ++ bs) = runs := by
        simp [invoked_of_not_asksResource (not_asksResource_ofClient hrest)]
      exact hkeeps hinvoked horder (by simp)

/-- When these sets handle the object a pass keeps to that. -/
theorem keeps_of_passOver (h : Runs (c.asked.passOver pass o (sets.map ResourceSet.asked)) as r) :
    c.Keeps pass o sets as r := by
  rcases sets with _ | ⟨s, _ | ⟨s', others⟩⟩
  · have hnone : ¬ AsksResource as := by
      refine not_asksResource_of_only (c.asked.only_release ?_ pass o) h
      rintro q ⟨q', ⟨⟩⟩
    exact keeps_of_not_asksResource hnone rfl
  · cases passes_of_passOver h with
    | ambiguous hsets => simp at hsets
    | unhandled hsets => simp at hsets
    | @handled s' hsets before during after x r hbefore hduring hafter hr =>
      obtain rfl : s.asked = s' := by simpa using hsets
      have hsame := sameWork_around during hbefore hafter
      refine (keeps_of_runPass hduring).of_same ?_ ?_ (by simp) hr
      · simp [invoked_of_not_asksResource hbefore.not_asksResource,
          invoked_of_not_asksResource hafter.not_asksResource]
      · exact fun q rep => hsame (.object q) rep (by simp [IsWork])
  · have hmany : 1 < (s :: s' :: others).length := by simp
    rw [passOver_of_several (by rwa [List.length_map]), List.length_map] at h
    exact keeps_of_several hmany rfl h

/-- A question of a resource that is not about its pass over the object. -/
def Strays (pass : Pass) (o : Object β) (q : ControllerRequest (turns I (Object β) P ι) β) : Prop :=
  ∃ q', q = .resource q' ∧ ∀ ρ, q' ≠ .run pass ρ o

theorem only_runPass_asked (s : ResourceSet I (Object β) P ι) :
    Only (Avoids (Strays pass o)) (c.asked.runPass pass s.asked o) := by
  have hobject (q : ObjectRequest β) : ¬ Strays (I := I) (P := P) (ι := ι) pass o (.object q) := by
    rintro ⟨q', ⟨⟩, -⟩
  have hrun (ρ : Resource I (Object β) P ι) :
      ¬ Strays pass o (.resource (.run pass ρ o) :
        ControllerRequest (turns I (Object β) P ι) β) := by
    rintro ⟨q', ⟨⟩, hnot⟩
    exact hnot ρ rfl
  refine only_runPass_of (only_ofClient hobject _) (only_ofClient hobject _)
    (only_runResources_of fun ρ hρ => ?_)
  obtain ⟨ρ, -, rfl⟩ := List.mem_map.1 hρ
  exact only_ask (fun _ => avoids_asked.2 (hrun ρ)) fun _ => only_done _

/-- Once the sets were asked, only passes of resources over the object are asked for. -/
theorem run_of_asked (h : Runs (c.asked.passOver pass o (sets.map ResourceSet.asked)) as r)
    {q : Turn I (Object β) P ι} {rep : (turns I (Object β) P ι).Reply q}
    (hmem : .asked (.resource q) rep ∈ as) : ∃ ρ, q = .run pass ρ o := by
  cases passes_of_passOver h with
  | ambiguous _ hidle => exact absurd ⟨q, rep, hmem⟩ hidle.not_asksResource
  | unhandled _ hrelease =>
    refine absurd ⟨q, rep, hmem⟩ (not_asksResource_of_only (only_release _ ?_ pass o) hrelease)
    rintro q ⟨q', ⟨⟩⟩
  | @handled s hsets before during after x r hbefore hduring hafter hr =>
    obtain ⟨s, -, rfl⟩ : ∃ s' ∈ sets, s'.asked = s :=
      List.mem_map.1 (hsets ▸ List.mem_singleton_self s)
    rcases List.mem_append.1 hmem with hmem | hmem
    · rcases List.mem_append.1 hmem with hmem | hmem
      · exact absurd ⟨q, rep, hmem⟩ hbefore.not_asksResource
      · refine Classical.byContradiction fun hnone => ?_
        exact only_runPass_asked s during x hduring _ hmem _ _ rfl ⟨q, rfl, not_exists.1 hnone⟩
    · exact absurd ⟨q, rep, hmem⟩ hafter.not_asksResource

/-- Once the sets were asked, none of them is asked again. -/
theorem consulted_of_passOver
    (h : Runs (c.asked.passOver pass o (sets.map ResourceSet.asked)) as r) :
    consulted as = [] := by
  refine List.filterMap_eq_nil_iff.2 fun a ha => ?_
  rcases a with s | d | m | ⟨_ | q | _, rep⟩
  case asked.resource =>
    obtain ⟨ρ, rfl⟩ := run_of_asked h ha
    rfl
  all_goals rfl

/-- What every run of a pass keeps to. -/
structure Exclusive (c : Controller I β P ι) (pass : Pass) (o : Object β)
    (as : List (Act (controllerInterface (turns I (Object β) P ι) β)))
    (r : Option (Except Error Unit)) : Prop extends c.Keeps pass o (found as) as r where
  /-- The sets are asked in order, once each. -/
  once : (consulted as).map Prod.fst <+: c.sets
  /-- All of them are, and nothing else happens before. -/
  all : (consulted as).map Prod.fst = c.sets ∨
    r = none ∧ ∀ a ∈ as, ∃ s yes, a = .asked (.resource (.handles s o)) yes
  /-- What they and the resources are asked is about this object and this pass. -/
  about : ∀ q rep, .asked (.resource q) rep ∈ as →
    (∃ s, q = .handles s o) ∨ ∃ ρ, q = .run pass ρ o

/-- The same goes for spans. -/
theorem Exclusive.inSpan (h : c.Exclusive pass o as r) (span : Span) :
    c.Exclusive pass o (as.map (Act.inSpan span)) r := by
  refine ⟨?_, ?_, ?_, fun q rep hmem => ?_⟩
  · rw [found, consulted_inSpan]
    exact h.toKeeps.inSpan span
  · rw [consulted_inSpan]
    exact h.once
  · rw [consulted_inSpan]
    refine h.all.imp_right fun ⟨hr, hacts⟩ => ⟨hr, fun a ha => ?_⟩
    obtain ⟨b, hb, rfl⟩ := List.mem_map.1 ha
    obtain ⟨s, yes, rfl⟩ := hacts b hb
    exact ⟨s, yes, rfl⟩
  · exact h.about q rep (asked_mem_map_inSpan.1 hmem)

/-- As long as only sets were asked a pass is exclusive. -/
theorem exclusive_asks {answers : List (ResourceSet I (Object β) P ι × Bool)}
    (h : answers.map Prod.fst <+: c.sets) : c.Exclusive pass o (asks o answers) none := by
  refine ⟨⟨by simp, fun _ => ⟨invoked_asks answers, ?_, ?_, by simp⟩, fun s _ => ?_, by simp⟩,
    by simpa using h, .inr ⟨rfl, fun a ha => handles_of_mem_asks ha⟩, fun q rep hmem => ?_⟩
  · rintro ⟨q, rep, hmem⟩
    obtain ⟨s, yes, ⟨⟩⟩ := handles_of_mem_asks hmem
  · rintro ⟨m, hmem⟩
    obtain ⟨s, yes, ⟨⟩⟩ := handles_of_mem_asks hmem
  · exact ⟨none, by simpa using .cut s.resources⟩
  · obtain ⟨s, yes, ⟨⟩⟩ := handles_of_mem_asks hmem
    exact .inl ⟨s, rfl⟩

/-- Whatever the sets and the resources answer, a pass is exclusive. -/
theorem exclusive_of_asking (h : Runs (c.asking pass o) as r) : c.Exclusive pass o as r := by
  obtain ⟨as, hasked, rfl⟩ := h.of_inSpan
  refine Exclusive.inSpan ?_ _
  rcases hasked.of_bind with ⟨rfl, hcut⟩ | ⟨sets, asked, as, rfl, hmatching, hpass⟩
  · obtain ⟨answers, rfl, hprefix, -⟩ := runs_matching hcut
    exact exclusive_asks hprefix
  · obtain ⟨answers, rfl, -, hall⟩ := runs_matching hmatching
    obtain ⟨hsets, rfl⟩ := hall sets rfl
    have hconsulted : consulted (asks o answers ++ as) = answers := by
      rw [consulted_append, consulted_asks, consulted_of_passOver hpass, List.append_nil]
    have hfound : found (asks o answers ++ as) = (answers.filter Prod.snd).map Prod.fst := by
      rw [found, hconsulted]
    have hall : (consulted (asks o answers ++ as)).map Prod.fst = c.sets := by
      rw [hconsulted, hsets]
    refine ⟨?_, hall ▸ List.prefix_refl _, .inl hall, fun q rep hmem => ?_⟩
    · rw [hfound]
      refine (keeps_of_passOver hpass).of_same (by simp) (fun q rep => ?_) (fun _ => ?_) (.inr rfl)
      · refine ⟨fun hmem => (List.mem_append.1 hmem).resolve_left fun hask => ?_,
          List.mem_append_right _⟩
        obtain ⟨s, yes, ⟨⟩⟩ := handles_of_mem_asks hask
      · rintro ⟨m, hmem⟩
        refine ⟨m, (List.mem_append.1 hmem).resolve_left fun hask => ?_⟩
        obtain ⟨s, yes, ⟨⟩⟩ := handles_of_mem_asks hask
    · rcases List.mem_append.1 hmem with hask | hrun
      · obtain ⟨s, yes, ⟨⟩⟩ := handles_of_mem_asks hask
        exact .inl ⟨s, rfl⟩
      · exact .inr (run_of_asked hpass hrun)

/-- A pass is the one that asks its sets and resources, answered by predicates and passes; it does
come to an error if several sets handle the object. And whatever sets and resources answer, each set
is asked once, and resources are run, in order, only if they belong to the one set that handles the
object. -/
theorem exclusive_routing (h : Runs (c.asking pass o) as r) :
    c.reconcile pass o = (c.asking pass o).interpret
        (fun q => (c.answering q).inSpan ⟨pass, c.name, o.key⟩) ∧
      (1 < (c.sets.filter fun s => s.handles o).length → ∃ as, Runs (c.reconcile pass o) as
        (some (.error (ambiguity (c.sets.filter fun s => s.handles o).length o)))) ∧
      c.Exclusive pass o as r :=
  ⟨rfl, exists_runs_of_several, exclusive_of_asking h⟩

end Controller

/-! ### Two copies of a set -/

namespace Boot

/-- A controller with two copies of a set of two resources. -/
def copies : Controller callOut Unit Unit String := { pair with sets := pair.sets ++ pair.sets }

/-- How its update pass goes if the copies answer in a given way and the first resource fails. -/
def updatedCopies (answers : List Bool) :
    List (Act (controllerInterface (turns callOut (Object Unit) Unit String) Unit) × List Bool) ×
      Option (Except Error Unit) × List Bool :=
  let reply : (q : (controllerInterface (turns callOut (Object Unit) Unit String) Unit).Request) →
      List Bool →
        (controllerInterface (turns callOut (Object Unit) Unit String) Unit).Reply q × List Bool
    | .object _, left => ((.error forbidden : Except Error (Object Unit)), left)
    | .resource (.handles _ _), left => (left.headD false, left.tail)
    | .resource (.run _ _ _), left => ((.error down : Except Error Unit), left)
    | .publish _ _, left => ((), left)
  (copies.asking .update (owned "2" false)).perform reply default answers

theorem runs_updatedCopies (answers : List Bool) :
    Runs (copies.asking .update (owned "2" false)) ((updatedCopies answers).1.map Prod.fst)
      (updatedCopies answers).2.1 :=
  runs_perform _ _ _ _

/-- If one of them handles the object then its first resource is run, and fails; if both do then
nothing is run, and the error tells that there are two. -/
theorem exclusive_routing_copies :
    Controller.found ((updatedCopies [false, true]).1.map Prod.fst) = pair.sets ∧
      (∃ x, Controller.InOrder [.basic "first", .basic "second"]
        (Controller.invoked ((updatedCopies [false, true]).1.map Prod.fst)) x) ∧
      Controller.invoked ((updatedCopies [false, true]).1.map Prod.fst) =
        [(.basic "first", .error down)] ∧
      (updatedCopies [true, true]).2.1 =
        some (.error (.internal "controller" "2 resource sets handle a")) ∧
      ¬ Controller.AsksObject ((updatedCopies [true, true]).1.map Prod.fst) := by
  obtain ⟨-, -, hone⟩ := Controller.exclusive_routing (runs_updatedCopies [false, true])
  obtain ⟨-, -, hboth⟩ := Controller.exclusive_routing (runs_updatedCopies [true, true])
  exact ⟨rfl, hone.inOrder _ rfl, rfl, rfl, (hboth.several (by decide)).2.1⟩

end Boot

end Reconciler
