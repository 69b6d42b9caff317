import Reconciler.Proofs.Program.Observation
import Reconciler.Proofs.Resource.Protocol

/-!
# Decorators that only observe

Logging and metrics watch a call and change nothing about it; neither does a retry decorator whose
policy never retries. Resources may be decorated by such decorators in every way there is: call by
call, as a whole, or whichever of the two applies, one after the other and in any order. However
they are stacked, nobody can tell the result from the undecorated resource.

The induction is over the stack. It carries watched passes (`Observed`), and for CRUD resources
watched calls: a decorator spliced into a CRUD resource wraps each of its calls, so that the pass is
put together from watched calls, while a layer wraps the pass.

## Main definitions

* `Decorator.IsObserver` : decorators that only observe
* `Registry.Stacked` : a resource decorated by some of these
* `Registry.Watched` : its passes and calls are those of the resource, watched

## Main results

* `Decorator.IsObserver.around` : one call
* `Registry.Stacked.watched` : any stack
* `Registry.Stacked.transparent` : nobody can tell
-/

namespace Reconciler

open Program

variable {I : Interface} {K S C P ι α : Type}

namespace Decorator

/-- The decorator adds no calls: it logs, measures, or retries under a policy that yields no delay
to wait for. A retried call looks ahead over at least one attempt. -/
def IsObserver : Decorator → Prop
  | .logging => True
  | .metrics _ => True
  | .retry policy => (∀ wall m, ((policy.cursor wall).next m).1 = none) ∧ 0 < policy.horizon

/-- Under a policy that never retries the first attempt is the only one. -/
theorem observed_retry {policy : RetryPolicy}
    (hpolicy : ∀ wall m, ((policy.cursor wall).next m).1 = none)
    (hhorizon : 0 < policy.horizon) (notify : UInt32 → Error → Duration → Program I Unit)
    {p q : Program I (Except Error α)} (h : Observed p q) :
    Observed p (Reconciler.retry policy notify q) := by
  refine .extraMoment fun m => ?_
  obtain ⟨n, hn⟩ := Nat.exists_eq_add_of_lt hhorizon
  rw [hn, Nat.zero_add, retryLoop]
  refine h.followed fun r => ?_
  cases r with
  | ok a => exact .done _
  | error e =>
    dsimp only
    split
    · refine .extraMoment fun m' => ?_
      have hnone := hpolicy m.wall m'
      split
      · exact .done _
      · next heq => simp [heq] at hnone
    · exact .done _

/-- A call that is watched stays so under one more decorator. -/
theorem IsObserver.around {d : Decorator} (hd : d.IsObserver) {p q : Program I (Except Error α)}
    (h : Observed p q) (resource : String) (op : Operation) :
    Observed p (d.around resource op q) := by
  cases d with
  | logging => exact .extraSignal _ (h.followed fun r => .extraSignal _ (.done r))
  | retry policy => exact observed_retry hd.1 hd.2 _ h
  | metrics handle => exact (h.followed fun r => (Observed.done r).measured _).measured _

end Decorator

/-- A pass is watched if the calls are. -/
theorem Ops.observed_reconcile {ops ops' : Ops I K S C}
    (h : ∀ call k, Observed (ops.perform call k) (ops'.perform call k)) (pass : Pass) (k : K) :
    Observed (ops.reconcile pass k) (ops'.reconcile pass k) := by
  refine (h .getCurrent k).andThen fun current => (h .getDesired k).andThen fun desired =>
    (h (.newPatch pass current desired) k).andThen fun patch => ?_
  rw [applyAll, applyAll]
  induction patch.changes with
  | nil => exact .done _
  | cons c cs ih => exact (h (.apply c.1 c.2) k).andThen fun _ => ih

namespace Registry

variable {reg : Registry I K P ι} {d : Decorator} {r r' r'' : Resource I K P ι}

/-- The second resource is the first with decorators around it that only observe, put there in any
of the three ways, one after the other. -/
inductive Stacked (reg : Registry I K P ι) (r : Resource I K P ι) : Resource I K P ι → Prop where
  /-- No decorator. -/
  | refl : Stacked reg r r
  /-- One more, in the way that applies to the resource. -/
  | wrapOne {d : Decorator} {r' r'' : Resource I K P ι} (h : Stacked reg r r') (hd : d.IsObserver)
      (hr : reg.wrapOne d r' = .ok r'') : Stacked reg r r''
  /-- One more around the calls of a CRUD resource. -/
  | splice {d : Decorator} {r' r'' : Resource I K P ι} (h : Stacked reg r r') (hd : d.IsObserver)
      (hr : reg.splice d r' = .ok r'') : Stacked reg r r''
  /-- One more around the passes. -/
  | layer {d : Decorator} {r' : Resource I K P ι} (h : Stacked reg r r') (hd : d.IsObserver) :
      Stacked reg r (.layer d r')

/-! ### What decorating does to passes and calls -/

/-- The passes of the second resource are those of the first, watched; and if it is a CRUD resource,
then so is the first, and its calls are those of the first, watched. -/
structure Watched (reg : Registry I K P ι) (r r' : Resource I K P ι) : Prop where
  ensure : ∀ pass k, Observed (reg.ensure pass r k) (reg.ensure pass r' k)
  perform : ∀ c', r' = .crud c' → ∃ c, r = .crud c ∧
    ∀ call k, Observed (c.ops.perform call k) (c'.ops.perform call k)

theorem Watched.refl (reg : Registry I K P ι) (r : Resource I K P ι) : reg.Watched r r where
  ensure _ _ := .refl _
  perform c' hc' := ⟨c', hc', fun _ _ => .refl _⟩

theorem Watched.layer (h : reg.Watched r r') (hd : d.IsObserver) :
    reg.Watched r (.layer d r') where
  ensure pass k := hd.around (h.ensure pass k) _ _
  perform _ hc' := by cases hc'

theorem Watched.splice (h : reg.Watched r r') (hd : d.IsObserver)
    (hr : reg.splice d r' = .ok r'') : reg.Watched r r'' := by
  obtain ⟨c', rfl, rfl⟩ := splice_eq_ok hr
  obtain ⟨c, rfl, hcalls⟩ := h.perform c' rfl
  have hperform (call : Call P P) (k : K) :
      Observed (c.ops.perform call k) ((c'.ops.decorate d).perform call k) :=
    hd.around (hcalls call k) _ _
  refine ⟨Ops.observed_reconcile hperform, ?_⟩
  rintro c'' ⟨⟩
  exact ⟨c, rfl, hperform⟩

theorem Stacked.watched (h : reg.Stacked r r') : reg.Watched r r' := by
  induction h with
  | refl => exact .refl reg r
  | wrapOne _ hd hr ih =>
    rcases wrapOne_eq_ok hr with hsplice | rfl
    · exact ih.splice hd hsplice
    · exact ih.layer hd
  | splice _ hd hr ih => exact ih.splice hd hr
  | layer _ hd ih => exact ih.layer hd

/-- However decorators that only observe are stacked on a resource, nobody can tell its passes from
those of the resource, nor, if the result is a CRUD resource, any of its calls. -/
theorem Stacked.transparent (h : reg.Stacked r r') :
    (∀ pass k, Alike (reg.ensure pass r k) (reg.ensure pass r' k)) ∧
      ∀ c', r' = .crud c' → ∃ c, r = .crud c ∧
        ∀ call k, Alike (c.ops.perform call k) (c'.ops.perform call k) := by
  refine ⟨fun pass k => (h.watched.ensure pass k).alike, fun c' hc' => ?_⟩
  obtain ⟨c, hc, hcalls⟩ := h.watched.perform c' hc'
  exact ⟨c, hc, fun call k => (hcalls call k).alike⟩

/-! ### A watched flag -/

/-- The flag as it is used. -/
def flagCrud : Crud flagpole Unit (Bool ⊕ Bool) := ⟨flag.erase flagState flagChange, by decide⟩

/-- No basic resources. -/
def flagRegistry : Registry flagpole Unit (Bool ⊕ Bool) Empty where
  lookup := Empty.elim

/-- Its calls are logged and measured, and its passes would be retried by a policy that never
retries. -/
def flagWatched : Resource flagpole Unit (Bool ⊕ Bool) Empty :=
  .layer (.retry ⟨.stop, 1⟩)
    (.crud ⟨(flagCrud.ops.decorate .logging).decorate (.metrics default), flagCrud.name_ne⟩)

theorem stacked_flagWatched : flagRegistry.Stacked (.crud flagCrud) flagWatched := by
  have hlogging : Decorator.logging.IsObserver := True.intro
  have hmetrics : (Decorator.metrics default).IsObserver := True.intro
  have hretry : (Decorator.retry ⟨.stop, 1⟩).IsObserver :=
    ⟨fun _ _ => rfl, Nat.one_pos⟩
  have hlogged := Stacked.refl.wrapOne hlogging (wrapOne_crud flagRegistry .logging flagCrud)
  have hmeasured := hlogged.splice hmetrics (splice_crud flagRegistry (.metrics default) _)
  exact hmeasured.layer hretry

/-- A flag that does what it is told; nobody looks at what is logged. -/
def flagSurroundings : Surroundings flagpole Bool where
  answer q up :=
    match q with
    | none => (up, up)
    | some up' => ((.ok () : Except Error Unit), up')
  moment up := (default, up)
  observe _ up := up

theorem unaffected_flagSurroundings : flagSurroundings.Unaffected id where
  answer q s t h := by
    obtain rfl : s = t := h
    exact ⟨rfl, rfl⟩
  reading _ _ _ := rfl
  moment _ := rfl
  observe _ _ := rfl

/-- If it is down then an update pass puts it up, as it would without the decorators. -/
theorem transparent_flagWatched :
    (flagRegistry.ensure .update flagWatched ()).run flagSurroundings false =
      (some (.ok ()), true) := by
  have halike := stacked_flagWatched.transparent.1 .update ()
  obtain ⟨hvalue, hleft⟩ := halike.run flagSurroundings id unaffected_flagSurroundings false
  have hplain : (flagRegistry.ensure .update (.crud flagCrud) ()).run flagSurroundings false =
      (some (.ok ()), true) := rfl
  rw [hplain] at hvalue hleft
  exact Prod.ext hvalue hleft

end Registry

end Reconciler
