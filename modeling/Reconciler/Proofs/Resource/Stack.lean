import Reconciler.Proofs.Program.Answering
import Reconciler.Proofs.Program.Completion
import Reconciler.Proofs.Resource.Persistence

/-!
# Stacks of decorators

A resource can be decorated call by call or as a whole, by any decorators in any order. Once a layer
stands around the whole nothing can be spliced into the calls any more, so what comes out is always
the same: some decorators around the calls, if it is a CRUD resource, and some around the passes.

To speak about the calls that the layers of such a stack see, the stack is run with notes. It is the
same stack, put together by the same `Decorator.around`, but whenever a call comes back from a
layer, a note of it is made, as a question that has no answer. A program without its notes is the
plain program again, so that every run of a decorated pass is a run with notes, without the notes.

## Main definitions

* `Stack` : decorators around the calls and around the passes of a resource
* `Registry.Decorated` : a resource that was decorated in any way, which made it a stack
* `Visit`, `noting` : a call that came back, and the interface that takes note of it
* `Stack.noted` : a pass with notes
* `visits`, `plain` : the notes of a run, and the run without them

## Main results

* `Registry.Decorated.resource_eq` : a decorated resource is a stack
* `Stack.interpret_noted` : without the notes it is the pass of the decorated resource
* `exists_run_of_forget` : every complete run without notes is a run with notes, without them
-/

namespace Reconciler

open Program

variable {I : Interface} {K S C P ι α : Type}

/-! ### Any way to decorate -/

/-- A resource with decorators around each of its calls, if it is a CRUD resource, and around its
passes. The outermost comes first. -/
structure Stack (I : Interface) (K P ι : Type) where
  /-- The resource beneath. -/
  base : Resource I K P ι
  /-- What stands around each call; only CRUD resources have calls. -/
  calls : List Decorator
  /-- What stands around the passes. -/
  layers : List Decorator

/-- One more decorator, in the way that applies. -/
def Stack.push (d : Decorator) (s : Stack I K P ι) : Stack I K P ι :=
  match s.base, s.layers with
  | .crud _, [] => { s with calls := d :: s.calls }
  | _, _ => { s with layers := d :: s.layers }

/-- The resource came about by decorating another one in any of the three ways, again and again,
which made it the stack. -/
inductive Registry.Decorated (reg : Registry I K P ι) :
    Stack I K P ι → Resource I K P ι → Prop where
  /-- No decorator. -/
  | base (r : Resource I K P ι) : Decorated reg ⟨r, [], []⟩ r
  /-- One more, in the way that applies to the resource. -/
  | wrapOne {d : Decorator} {s : Stack I K P ι} {r r' : Resource I K P ι} (h : Decorated reg s r)
      (hr : reg.wrapOne d r = .ok r') : Decorated reg (s.push d) r'
  /-- One more around the calls of a CRUD resource. -/
  | splice {d : Decorator} {s : Stack I K P ι} {r r' : Resource I K P ι} (h : Decorated reg s r)
      (hr : reg.splice d r = .ok r') : Decorated reg { s with calls := d :: s.calls } r'
  /-- One more around the passes. -/
  | layer {d : Decorator} {s : Stack I K P ι} {r : Resource I K P ι} (h : Decorated reg s r) :
      Decorated reg { s with layers := d :: s.layers } (.layer d r)

@[simp] theorem Ops.name_foldr_decorate (ds : List Decorator) (ops : Ops I K S C) :
    (ds.foldr Ops.decorate ops).name = ops.name := by
  induction ds with
  | nil => rfl
  | cons d ds ih => exact ih

theorem Ops.perform_foldr_decorate (ds : List Decorator) (ops : Ops I K S C) (c : Call S C)
    (k : K) : (ds.foldr Ops.decorate ops).perform c k =
      ds.foldr (fun d p => d.around ops.name c.operation p) (ops.perform c k) := by
  induction ds with
  | nil => rfl
  | cons d ds ih =>
    change d.around (ds.foldr Ops.decorate ops).name c.operation _ = _
    rw [ih, Ops.name_foldr_decorate, List.foldr_cons]

namespace Registry

variable (reg : Registry I K P ι)

@[simp] theorem name_foldr_layer (ds : List Decorator) (r : Resource I K P ι) :
    reg.name (ds.foldr .layer r) = reg.name r := by
  induction ds with
  | nil => rfl
  | cons d ds ih => exact ih

theorem ensure_foldr_layer (ds : List Decorator) (r : Resource I K P ι) (pass : Pass) (k : K) :
    reg.ensure pass (ds.foldr .layer r) k =
      ds.foldr (fun d p => d.around (reg.name r) pass.operation p) (reg.ensure pass r k) := by
  induction ds with
  | nil => rfl
  | cons d ds ih => rw [List.foldr_cons, ensure, ih, name_foldr_layer, List.foldr_cons]

end Registry

namespace Stack

/-- The resource with the decorators around its calls. -/
def core (s : Stack I K P ι) : Resource I K P ι :=
  match s.base with
  | .crud c => .crud ⟨s.calls.foldr Ops.decorate c.ops, (c.ops.name_foldr_decorate s.calls).trans_ne
      c.name_ne⟩
  | r => r

/-- The resource with all the decorators. -/
def resource (s : Stack I K P ι) : Resource I K P ι := s.layers.foldr .layer s.core

theorem name_core (s : Stack I K P ι) (reg : Registry I K P ι) :
    reg.name s.core = reg.name s.base := by
  rcases s with ⟨_ | _ | c, calls, layers⟩
  · rfl
  · rfl
  · exact c.ops.name_foldr_decorate calls

variable {reg : Registry I K P ι} {d : Decorator} {s : Stack I K P ι} {r : Resource I K P ι}

/-- Calls are decorated only as long as nothing stands around the passes. -/
theorem resource_splice (hr : reg.splice d s.resource = .ok r) :
    Stack.resource { s with calls := d :: s.calls } = r := by
  rcases s with ⟨base, calls, _ | ⟨d', layers⟩⟩
  · cases base with
    | crud c => exact Except.ok.inj ((reg.splice_crud d _).symm.trans hr)
    | _ => cases hr
  · cases hr

theorem resource_push (hr : reg.wrapOne d s.resource = .ok r) : (s.push d).resource = r := by
  rcases Registry.wrapOne_eq_ok hr with hsplice | rfl
  · have hresource := resource_splice hsplice
    rcases s with ⟨base, calls, _ | ⟨d', layers⟩⟩
    · cases base with
      | crud c => exact hresource
      | _ => cases hsplice
    · cases hsplice
  · rcases s with ⟨base, calls, _ | ⟨d', layers⟩⟩
    · cases base with
      | crud c => cases (reg.wrapOne_crud d _).symm.trans hr
      | _ => rfl
    · cases base with
      | _ => rfl

end Stack

/-- However a resource was decorated, it is the stack. -/
theorem Registry.Decorated.resource_eq {reg : Registry I K P ι} {s : Stack I K P ι}
    {r : Resource I K P ι} (h : reg.Decorated s r) : s.resource = r := by
  induction h with
  | base r =>
    cases r with
    | _ => rfl
  | wrapOne _ hr ih =>
    subst ih
    exact Stack.resource_push hr
  | splice _ hr ih =>
    subst ih
    exact Stack.resource_splice hr
  | layer _ ih => exact congrArg (Resource.layer _) ih

/-! ### Notes -/

/-- A call that came back. -/
structure Visit where
  /-- The layer that it came back from, and those beneath that one. If there are none, it came back
  from the resource itself. -/
  layers : List Decorator
  /-- The resource that was called. -/
  resource : String
  /-- What was called. -/
  operation : Operation
  /-- What the call failed with, if it did. -/
  error : Option Error

/-- What a result failed with, if it did. -/
def error? : Except Error α → Option Error
  | .ok _ => none
  | .error e => some e

/-- The interface, with notes of calls that came back. -/
abbrev noting (I : Interface) : Interface where
  Request := I.Request ⊕ Visit
  Reply
    | .inl q => I.Reply q
    | .inr _ => Unit

namespace Program

/-- Whatever is noted, nothing is done about it. -/
def forget : (q : (noting I).Request) → Program I ((noting I).Reply q)
  | .inl q => request q
  | .inr _ => .done ()

/-- A program that makes no notes. -/
def noteless (p : Program I α) : Program (noting I) α :=
  p.interpret fun q => .ask (I := noting I) (.inl q) .done

/-- A call that is noted when it comes back. -/
def reported (layers : List Decorator) (resource : String) (op : Operation)
    (p : Program (noting I) (Except Error α)) : Program (noting I) (Except Error α) :=
  p.bind fun r => .ask (I := noting I) (.inr ⟨layers, resource, op, error? r⟩) fun _ => .done r

/-- A call through layers, with notes. -/
def through (resource : String) (op : Operation) (body : Program (noting I) (Except Error α)) :
    List Decorator → Program (noting I) (Except Error α)
  | [] => body.reported [] resource op
  | d :: ds => (d.around resource op (body.through resource op ds)).reported (d :: ds) resource op

@[simp] theorem interpret_noteless (p : Program I α) : p.noteless.interpret forget = p :=
  (interpret_interpret _ _ p).trans (interpret_ask p)

@[simp] theorem interpret_reported (layers : List Decorator) (resource : String) (op : Operation)
    (p : Program (noting I) (Except Error α)) :
    (p.reported layers resource op).interpret forget = p.interpret forget :=
  (interpret_bind _ p _).trans (bind_done _)

/-- Without the notes the layers are decorators. -/
theorem interpret_through (resource : String) (op : Operation)
    (body : Program (noting I) (Except Error α)) (ds : List Decorator) :
    (body.through resource op ds).interpret forget =
      ds.foldr (fun d p => d.around resource op p) (body.interpret forget) := by
  induction ds with
  | nil => exact interpret_reported [] resource op body
  | cons d ds ih =>
    rw [through, interpret_reported, Decorator.interpret_around, ih, List.foldr_cons]

end Program

/-- The resource with layers around its calls, each of which takes note. -/
def Ops.noted (ops : Ops I K S C) (ds : List Decorator) : Ops (noting I) K S C where
  name := ops.name
  perform c k := (ops.perform c k).noteless.through ops.name c.operation ds

theorem Ops.answeredBy_noted (ops : Ops I K S C) (ds : List Decorator) :
    (ops.noted ds).answeredBy forget = ds.foldr Ops.decorate ops := by
  have hperform : ((ops.noted ds).answeredBy forget).perform =
      (ds.foldr Ops.decorate ops).perform := by
    funext c k
    rw [Ops.perform_foldr_decorate]
    refine (interpret_through _ _ _ ds).trans ?_
    rw [interpret_noteless]
  have hname : ((ops.noted ds).answeredBy forget).name = (ds.foldr Ops.decorate ops).name :=
    (Ops.name_foldr_decorate ds ops).symm
  exact congrArg₂ Ops.mk hname hperform

namespace Stack

variable (s : Stack I K P ι) (reg : Registry I K P ι) (pass : Pass) (k : K)

/-- A pass of the resource with the decorators around its calls, with notes. -/
def notedCore : Program (noting I) (Except Error Unit) :=
  match s.base with
  | .crud c => (c.ops.noted s.calls).reconcile pass k
  | r => (reg.ensure pass r k).noteless

/-- A pass of the resource with all the decorators, with notes. -/
def noted : Program (noting I) (Except Error Unit) :=
  (s.notedCore reg pass k).through (reg.name s.base) pass.operation s.layers

theorem interpret_notedCore :
    (s.notedCore reg pass k).interpret forget = reg.ensure pass s.core k := by
  rcases s with ⟨i | ⟨d, inner⟩ | c, calls, layers⟩
  · exact interpret_noteless _
  · exact interpret_noteless _
  · change ((c.ops.noted calls).reconcile pass k).interpret forget =
      (calls.foldr Ops.decorate c.ops).reconcile pass k
    rw [Ops.reconcile_eq_protocol, Ops.reconcile_eq_protocol, ← Ops.protocol_answeredBy,
      Ops.answeredBy_noted]

/-- Without the notes it is a pass of the decorated resource. -/
theorem interpret_noted :
    (s.noted reg pass k).interpret forget = reg.ensure pass s.resource k := by
  rw [noted, interpret_through, interpret_notedCore, resource, reg.ensure_foldr_layer, name_core]

end Stack

/-! ### Runs with notes -/

/-- The act, unless it is a note. -/
def Program.Act.plain? : Act (noting I) → Option (Act I)
  | .signalled s => some (.signalled s)
  | .slept d => some (.slept d)
  | .looked m => some (.looked m)
  | .asked (.inl q) r => some (.asked q r)
  | .asked (.inr _) _ => none

/-- What is noted, if the act is a note. -/
def Program.Act.visit? : Act (noting I) → Option Visit
  | .asked (.inr v) _ => some v
  | _ => none

/-- A run without its notes. -/
def plain (as : List (Act (noting I))) : List (Act I) := as.filterMap Act.plain?

/-- The notes of a run. -/
def visits (as : List (Act (noting I))) : List Visit := as.filterMap Act.visit?

@[simp] theorem visits_nil : visits ([] : List (Act (noting I))) = [] := rfl

@[simp] theorem visits_append (as bs : List (Act (noting I))) :
    visits (as ++ bs) = visits as ++ visits bs :=
  List.filterMap_append

@[simp] theorem plain_append (as bs : List (Act (noting I))) :
    plain (as ++ bs) = plain as ++ plain bs :=
  List.filterMap_append

/-- Notes record nothing. -/
@[simp] theorem measured_plain (as : List (Act (noting I))) :
    measured (plain as) = measured as := by
  rw [measured, plain, List.filterMap_filterMap]
  refine congrArg (List.filterMap · as) (funext fun a => ?_)
  rcases a with ⟨_ | _⟩ | _ | _ | ⟨_ | _, _⟩ <;> rfl

@[simp] theorem visits_recordings (ms : List Measurement) :
    visits (recordings ms : List (Act (noting I))) = [] := by
  rw [visits, recordings, List.filterMap_map]
  exact List.filterMap_eq_nil_iff.2 fun _ _ => rfl

/-- Answered at length, the notes are gone. -/
theorem plain_of_expands {as : List (Act (noting I))} {bs : List (Act I)}
    (h : Expands forget as bs) : plain as = bs := by
  induction h with
  | nil => rfl
  | signalled s _ ih => exact congrArg (_ :: ·) ih
  | slept d _ ih => exact congrArg (_ :: ·) ih
  | looked m _ ih => exact congrArg (_ :: ·) ih
  | @asked q rep during hq as bs _ ih =>
    cases q with
    | inl q =>
      obtain rfl := runs_request hq
      exact congrArg (_ :: ·) ih
    | inr v =>
      have hq : Runs (.done ()) during (some rep) := hq
      obtain ⟨rfl, -⟩ := hq.of_done
      exact ih

/-- A complete run without notes is a complete run with notes, without them. -/
theorem exists_run_of_forget {p : Program (noting I) α} {as : List (Act I)} {a : α}
    (h : Runs (p.interpret forget) as (some a)) : ∃ bs, Runs p bs (some a) ∧ plain bs = as := by
  obtain ⟨bs, hruns, hexpands⟩ := h.of_interpret
  exact ⟨bs, hruns, plain_of_expands hexpands⟩

/-- A call through layers ends with a note of its result. -/
theorem runs_reported {layers : List Decorator} {resource : String} {op : Operation}
    {p : Program (noting I) (Except Error α)} {as : List (Act (noting I))} {x : Except Error α}
    (h : Runs (p.reported layers resource op) as (some x)) :
    ∃ before, as = before ++ [.asked (.inr ⟨layers, resource, op, error? x⟩) ()] ∧
      Runs p before (some x) := by
  obtain ⟨y, before, noted, rfl, hbefore, hrest⟩ := h.complete_of_bind
  obtain ⟨_, as, rfl, hend⟩ := hrest.of_ask
  obtain ⟨rfl, hx⟩ := hend.of_done
  obtain rfl : x = y := by simpa using hx
  exact ⟨before, rfl, hbefore⟩

/-- A run of a program that makes no notes is a run of the program. -/
theorem runs_noteless {p : Program I α} {as : List (Act (noting I))} {r : Option α}
    (h : Runs p.noteless as r) : visits as = [] ∧ Runs p (plain as) r := by
  obtain ⟨as, hruns, rfl⟩ := Runs.of_interpret_ask (J := noting I) Sum.inl (fun _ rep => rep)
    (fun _ rep => rep) (fun _ _ => rfl) h
  have hplain (a : Act I) :
      (a.embed (J := noting I) Sum.inl fun _ rep => rep).plain? = some a := by
    cases a with
    | _ => rfl
  have hvisit (a : Act I) :
      (a.embed (J := noting I) Sum.inl fun _ rep => rep).visit? = none := by
    cases a with
    | _ => rfl
  rw [visits, plain, List.filterMap_map, List.filterMap_map]
  refine ⟨List.filterMap_eq_nil_iff.2 fun a _ => hvisit a, ?_⟩
  have hsame : as.filterMap (Act.plain? ∘ Act.embed Sum.inl fun _ rep => rep) = as :=
    (congrArg (List.filterMap · as) (funext hplain)).trans List.filterMap_some
  rwa [hsame]

theorem ensures_noteless {T : List Visit → Prop} (hT : T []) (p : Program I α) :
    Ensures (fun as => T (visits as)) p.noteless := by
  intro as a hruns
  rwa [(runs_noteless hruns).1]

end Reconciler
