import Reconciler.Controller.Basic
import Reconciler.Proofs.Program.Answering

/-!
# A pass with the answers put in

A pass asks its sets and its resources, and `Controller.reconcile` has their answers put in. So it
goes on with the sets whose predicates hold of the object, and where a resource would be asked for
its pass the pass is run. Everything else in a pass asks neither a set nor a resource, and the
answers leave it as it is.

## Main results

* `Controller.interpret_matching` : the predicates find the sets that handle the object
* `Controller.interpret_passOver` : the resources run their passes
* `Controller.reconcile_eq` : the pass is the one over the sets whose predicates hold
-/

namespace Reconciler

open Program

namespace Controller

variable {I : Interface} {β P ι : Type} {c : Controller I β P ι} {pass : Pass} {o : Object β}

/-! ### The three ways of a pass -/

/-- The error of an object that a number of sets handle. -/
def ambiguity (n : Nat) (o : Object β) : Error :=
  .internal "controller" (toString n ++ " resource sets handle " ++ o.key)

theorem passOver_nil : c.passOver pass o [] = c.release pass o := rfl

theorem passOver_singleton (s : ResourceSet I (Object β) P ι) :
    c.passOver pass o [s] = (Program.measure (c.metrics.begun pass)).bind fun _ =>
      (c.runPass pass s o).bind fun x => c.finish pass o x := rfl

theorem passOver_of_several {found : List (ResourceSet I (Object β) P ι)}
    (hfound : 1 < found.length) :
    c.passOver pass o found =
      (Program.log (.objectAmbiguous (ambiguity found.length o))).bind fun _ =>
        (c.publish o (.ofError pass .ambiguousResourceSet (ambiguity found.length o))).bind fun _ =>
          .done (.error (ambiguity found.length o)) := by
  rcases found with _ | ⟨s, _ | ⟨s', others⟩⟩
  · cases hfound
  · simp at hfound
  · exact congrArg (signal _) (Program.bind_assoc (c.publish o _) _ _)

/-! ### Questions to the server and to the resources -/

section

variable {J L : Interface} {α : Type}
  (g : (q : (controllerInterface J β).Request) → Program L ((controllerInterface J β).Reply q))

/-- What the object client is asked is answered as a question about stored objects. -/
theorem interpret_ofClient (p : Program (objectClient β) α) :
    (ofClient p).interpret g = p.interpret fun q => g (.object q) := by
  refine (interpret_interpret _ g p).trans ?_
  congr 1
  funext q
  exact bind_done _

theorem ofResource_bind {γ : Type} (p : Program J α) (f : α → Program J γ) :
    (ofResource (p.bind f) : Task J β γ) = (ofResource p).bind fun a => ofResource (f a) :=
  interpret_bind _ p f

/-- What the resources are asked is answered as a question of theirs. -/
theorem interpret_ofResource (p : Program J α) :
    (ofResource p).interpret g = p.interpret fun q => g (.resource q) := by
  refine (interpret_interpret _ g p).trans ?_
  congr 1
  funext q
  exact bind_done _

end

/-! ### The answers -/

/-- Asked by their predicates, the sets that handle the object are found. -/
theorem interpret_matching (sets : List (ResourceSet I (Object β) P ι)) :
    (ofResource (matching o sets)).interpret c.answering =
      .done (sets.filter fun s => s.handles o) := by
  refine (interpret_ofResource _ _).trans ?_
  induction sets with
  | nil => rfl
  | cons s sets ih =>
    refine (interpret_bind _ (matching o sets) _).trans ?_
    rw [ih, done_bind, List.filter_cons]
    rfl

/-- Asked for by their registry, the passes of the resources are run. -/
theorem interpret_runResources (s : ResourceSet I (Object β) P ι) :
    (c.asked.runResources pass s.asked o).interpret c.answering = c.runResources pass s o := by
  refine (interpret_sequence _ _).trans ?_
  rw [runResources, ResourceSet.asked, List.map_map, List.map_map]
  congr 1
  refine List.map_congr_left fun r _ => ?_
  exact (interpret_ofResource _ _).trans (interpret_request _ _)

theorem interpret_publish (f : Failure) :
    (c.asked.publish o f).interpret c.answering = c.publish o f :=
  (interpret_ite _ _ _).trans rfl

theorem interpret_finish (x : Except Error Unit) :
    (c.asked.finish pass o x).interpret c.answering = c.finish pass o x := by
  cases x with
  | ok u =>
    refine (interpret_bind _ _ _).trans ?_
    rw [interpret_measure]
    rfl
  | error e =>
    refine (interpret_bind _ _ _).trans ?_
    rw [interpret_measure]
    refine congrArg _ (funext fun _ => ?_)
    refine (interpret_bind _ _ _).trans ?_
    refine congrArg _ (funext fun _ => ?_)
    refine (interpret_bind _ _ _).trans ?_
    rw [interpret_publish]
    rfl

theorem interpret_runPass (s : ResourceSet I (Object β) P ι) :
    (c.asked.runPass pass s.asked o).interpret c.answering = c.runPass pass s o := by
  have hclient (p : Program (objectClient β) (Except Error Unit)) :
      (ofClient p).interpret c.answering = ofClient p := interpret_ofClient _ p
  cases pass with
  | update =>
    refine (interpret_andThen _ _ _).trans ?_
    simp only [hclient, interpret_runResources]
    rfl
  | delete =>
    refine (interpret_andThen _ _ _).trans ?_
    simp only [hclient, interpret_runResources]
    rfl

theorem interpret_release :
    (c.asked.release pass o).interpret c.answering = c.release pass o := by
  cases pass with
  | update => rfl
  | delete =>
    refine (interpret_ite _ _ _).trans ?_
    rw [interpret_ofClient]
    rfl

/-- Over the same sets a pass goes the same way. -/
theorem interpret_passOver (found : List (ResourceSet I (Object β) P ι)) :
    (c.asked.passOver pass o (found.map ResourceSet.asked)).interpret c.answering =
      c.passOver pass o found := by
  rcases found with _ | ⟨s, _ | ⟨s', others⟩⟩
  · exact interpret_release
  · rw [List.map_singleton, passOver_singleton, passOver_singleton]
    refine (interpret_bind _ _ _).trans ?_
    rw [interpret_measure]
    refine congrArg _ (funext fun _ => ?_)
    refine (interpret_bind _ _ _).trans ?_
    rw [interpret_runPass]
    exact congrArg _ (funext fun x => interpret_finish x)
  · have hmany : 1 < (s :: s' :: others).length := by simp
    rw [passOver_of_several hmany, passOver_of_several (by rwa [List.length_map]), List.length_map]
    refine congrArg (signal _) ?_
    refine (interpret_bind c.answering (publish _ _ _) _).trans ?_
    rw [interpret_publish]
    rfl

/-- The pass that runs is the one over the sets whose predicates hold of the object. -/
theorem reconcile_eq (c : Controller I β P ι) (pass : Pass) (o : Object β) :
    c.reconcile pass o = (c.passOver pass o (c.sets.filter fun s => s.handles o)).inSpan
      ⟨pass, c.name, o.key⟩ := by
  refine (interpret_inSpan _ c.answering _).trans (congrArg _ ?_)
  refine (interpret_bind _ _ _).trans ?_
  rw [interpret_matching, done_bind, interpret_passOver]

end Controller

end Reconciler
