import Reconciler.Proofs.Program.Sequence
import Reconciler.Proofs.Program.Trace
import Reconciler.Resource.Basic

/-!
# The patch protocol on typed resources

`Ops.reconcile` runs over payloads and goes through the changes of a patch as a list.
`Ops.protocol` is the pass as one would write it down for a resource whose states and changes have
their own types: read, read, compare, then apply what is set, slot by slot. No payload occurs in it
and nothing can be refused.

A resource with payloads stands for a typed one (`Erases`) if every call whose payloads are of the
right types is the typed call with its answer embedded. What `Ops.erase` makes is of that kind, and
decorators keep it so. A pass over such a resource makes only calls of that kind: payloads come out
of the resource's own answers. So it is the protocol of the typed resource, question by question.

## Main definitions

* `Ops.protocol` : a pass over a typed resource
* `Call.embed`, `Call.embedReply` : a typed call and its answer as payloads
* `Ops.Erases` : standing for a typed resource
* `Ops.Raises` : failing only where a call fails

## Main results

* `Ops.Erases.reconcile` : a pass with payloads is the typed protocol
* `Ops.Erases.decorate` : decorated calls stand for decorated calls
* `Crud.refines_protocol` : the same for the resource as it is used, and where its errors come from
-/

namespace Reconciler

open Program

variable {I : Interface} {K S C P ι α β : Type}

namespace Ops

/-- Apply the change of a slot if there is one. -/
def applySet (ops : Ops I K S C) (slot : Slot) (change : Option C) (k : K) :
    Program I (Except Error Unit) :=
  match change with
  | none => .done (.ok ())
  | some c => ops.perform (.apply slot c) k

/-- A pass over a typed resource: both states, the patch from exactly these, then its changes, each
if it is set. The first failure ends the pass. -/
def protocol (ops : Ops I K S C) (pass : Pass) (k : K) : Program I (Except Error Unit) :=
  (ops.perform .getCurrent k).andThen fun current =>
    (ops.perform .getDesired k).andThen fun desired =>
      (ops.perform (.newPatch pass current desired) k).andThen fun patch =>
        (ops.applySet .create patch.create k).andThen fun _ =>
          (ops.applySet .delete patch.delete k).andThen fun _ =>
            ops.applySet .update patch.update k

/-- The changes of a patch one by one are its changes slot by slot. -/
theorem applyAll_eq (ops : Ops I K S C) (patch : Patch C) (k : K) :
    ops.applyAll patch k =
      (ops.applySet .create patch.create k).andThen fun _ =>
        (ops.applySet .delete patch.delete k).andThen fun _ =>
          ops.applySet .update patch.update k := by
  have hlast (p : Program I (Except Error Unit)) : (p.andThen fun _ => .done (.ok ())) = p :=
    andThen_ok p
  rcases patch with ⟨_ | create, _ | delete, _ | update⟩ <;>
    simp [applyAll, Patch.changes, Program.sequence, applySet, hlast]

theorem reconcile_eq_protocol (ops : Ops I K S C) (pass : Pass) (k : K) :
    ops.reconcile pass k = ops.protocol pass k := by
  simp only [reconcile, applyAll_eq, protocol]

end Ops

/-! ### Typed calls as calls with payloads -/

section Embed

variable (state : Embedding P S) (change : Embedding P C)

/-- A typed call as a call with payloads. -/
def Call.embed : Call S C → Call P P
  | .getCurrent => .getCurrent
  | .getDesired => .getDesired
  | .newPatch pass current desired => .newPatch pass (state.inject current) (state.inject desired)
  | .apply slot c => .apply slot (change.inject c)

/-- The answer to a typed call as an answer with payloads. -/
def Call.embedReply : (c : Call S C) → c.Reply → (c.embed state change).Reply
  | .getCurrent, current => state.inject current
  | .getDesired, desired => state.inject desired
  | .newPatch .., patch => patch.map change.inject
  | .apply .., u => u

theorem Call.operation_embed (c : Call S C) : (c.embed state change).operation = c.operation := by
  cases c with
  | getCurrent => rfl
  | getDesired => rfl
  | newPatch pass current desired => cases pass <;> rfl
  | apply slot c => cases slot <;> rfl

/-- The resource with payloads stands for the typed one: it has its name, and answers a call whose
payloads are of the right types by the typed call. -/
structure Ops.Erases (ops : Ops I K S C) (erased : Ops I K P P) : Prop where
  name : erased.name = ops.name
  perform : ∀ (c : Call S C) (k : K), erased.perform (c.embed state change) k =
    (ops.perform c k).mapOk (c.embedReply state change)

variable {state change} {ops : Ops I K S C} {erased : Ops I K P P}

/-- What was embedded is recovered, so nothing is refused. -/
theorem Ops.erases_erase : ops.Erases state change (ops.erase state change) where
  name := rfl
  perform c k := by
    cases c with
    | getCurrent => exact andThen_eq_mapOk _ _
    | getDesired => exact andThen_eq_mapOk _ _
    | newPatch pass current desired =>
      simp only [erase, Call.embed, Embedding.project?_inject]
      exact andThen_eq_mapOk _ _
    | apply slot c =>
      simp only [erase, Call.embed, Embedding.project?_inject]
      exact (andThen_ok _).symm.trans (andThen_eq_mapOk _ _)

/-- What only looks at whether a program failed, before and after it. -/
theorem bracket_mapOk {f : α → β} (before : Program I Unit)
    {after : Except Error α → Program I Unit} {after' : Except Error β → Program I Unit}
    (h : ∀ r, after' (r.map f) = after r) (body : Program I (Except Error α)) :
    (before.bind fun _ => (body.mapOk f).bind fun r => (after' r).bind fun _ => .done r) =
      (before.bind fun _ => body.bind fun r => (after r).bind fun _ => .done r).mapOk f := by
  refine Eq.trans ?_ (Program.bind_assoc before _ _).symm
  congr 1
  funext u
  rw [mapOk_bind, Program.bind_assoc]
  congr 1
  funext r
  rw [h, Program.bind_assoc]
  rfl

/-- A decorator does not look at the value of a success. -/
theorem Decorator.around_mapOk (d : Decorator) (resource : String) (op : Operation) (f : α → β)
    (body : Program I (Except Error α)) :
    d.around resource op (body.mapOk f) = (d.around resource op body).mapOk f := by
  cases d with
  | logging =>
    refine bracket_mapOk (Program.log (.callStarted resource op)) (fun r => ?_) body
    cases r with
    | ok a => rfl
    | error e => rfl
  | retry policy => exact retry_mapOk f policy _ body
  | metrics handle =>
    refine bracket_mapOk (Program.measure (handle.begun resource op.label)) (fun r => ?_) body
    cases r with
    | ok a => rfl
    | error e => rfl

namespace Ops

theorem Erases.decorate (h : ops.Erases state change erased) (d : Decorator) :
    (ops.decorate d).Erases state change (erased.decorate d) where
  name := h.name
  perform c k := by
    change d.around erased.name (c.embed state change).operation
        (erased.perform (c.embed state change) k) =
      (d.around ops.name c.operation (ops.perform c k)).mapOk _
    rw [h.name, h.perform, Call.operation_embed, Decorator.around_mapOk]

/-- Changes are embedded slot by slot. -/
theorem Erases.applySet (h : ops.Erases state change erased) (slot : Slot) (c : Option C) (k : K) :
    erased.applySet slot (c.map change.inject) k = ops.applySet slot c k := by
  cases c with
  | none => rfl
  | some c =>
    calc erased.perform (.apply slot (change.inject c)) k
        = (ops.perform (.apply slot c) k).mapOk id := h.perform (.apply slot c) k
      _ = ops.perform (.apply slot c) k := (andThen_eq_mapOk _ _).symm.trans (andThen_ok _)

/-- A pass with payloads is the typed protocol. -/
theorem Erases.reconcile (h : ops.Erases state change erased) (pass : Pass) (k : K) :
    erased.reconcile pass k = ops.protocol pass k := by
  have hcurrent : erased.perform .getCurrent k =
      (ops.perform .getCurrent k).mapOk state.inject := h.perform .getCurrent k
  have hdesired : erased.perform .getDesired k =
      (ops.perform .getDesired k).mapOk state.inject := h.perform .getDesired k
  have hpatch (current desired : S) :
      erased.perform (.newPatch pass (state.inject current) (state.inject desired)) k =
        (ops.perform (.newPatch pass current desired) k).mapOk (Patch.map change.inject) :=
    h.perform (.newPatch pass current desired) k
  rw [reconcile_eq_protocol, protocol, protocol, hcurrent, mapOk_andThen]
  congr 1
  funext current
  rw [hdesired, mapOk_andThen]
  congr 1
  funext desired
  rw [hpatch, mapOk_andThen]
  simp only [Patch.map, h.applySet]

end Ops

end Embed

/-! ### Where errors come from -/

namespace Ops

/-- The program fails only where a call of the resource fails, with the error of that call and right
after it. -/
def Raises (ops : Ops I K S C) (k : K) (p : Program I (Except Error α)) : Prop :=
  ∀ as e, Runs p as (some (.error e)) →
    ∃ call before during, as = before ++ during ∧ Runs (ops.perform call k) during (some (.error e))

variable {ops : Ops I K S C} {k : K}

theorem raises_perform (call : Call S C) : ops.Raises k (ops.perform call k) := by
  intro as e h
  exact ⟨call, [], as, rfl, h⟩

theorem raises_ok (a : α) : ops.Raises k (.done (.ok a)) := by
  intro as e h
  exact absurd h.of_done.2 (by simp)

theorem Raises.andThen {p : Program I (Except Error α)} (hp : ops.Raises k p)
    {f : α → Program I (Except Error β)} (hf : ∀ a, ops.Raises k (f a)) :
    ops.Raises k (p.andThen f) := by
  intro as e h
  rcases h.of_andThen with ⟨hnone, -⟩ | ⟨e', he', hfirst⟩ | ⟨a, as₁, as₂, rfl, -, hrest⟩
  · cases hnone
  · obtain rfl : e = e' := by simpa using he'
    exact hp as e hfirst
  · obtain ⟨call, before, during, rfl, hcall⟩ := hf a as₂ e hrest
    exact ⟨call, as₁ ++ before, during, (List.append_assoc ..).symm, hcall⟩

theorem raises_applySet (slot : Slot) (change : Option C) :
    ops.Raises k (ops.applySet slot change k) := by
  cases change with
  | none => exact raises_ok ()
  | some c => exact raises_perform (.apply slot c)

theorem raises_protocol (pass : Pass) : ops.Raises k (ops.protocol pass k) :=
  (raises_perform _).andThen fun _ => (raises_perform _).andThen fun _ =>
    (raises_perform _).andThen fun _ => (raises_applySet _ _).andThen fun _ =>
      (raises_applySet _ _).andThen fun _ => raises_applySet _ _

end Ops

/-! ### The resource as it is used -/

/-- A typed resource that has a name is accepted. A pass over it is the typed protocol, whatever its
calls do, and an error of the pass is the error of the typed call that the pass ends with. So no
payload is ever refused. -/
theorem Crud.refines_protocol (state : Embedding P S) (change : Embedding P C) (ops : Ops I K S C)
    (hname : ops.name ≠ "") :
    ∃ c : Crud I K P, Crud.ofOps (ops.erase state change) = .ok c ∧
      ∀ (reg : Registry I K P ι) (pass : Pass) (k : K),
        reg.ensure pass (.crud c) k = ops.protocol pass k ∧
          ∀ as e, Runs (reg.ensure pass (.crud c) k) as (some (.error e)) →
            ∃ call before during, as = before ++ during ∧
              Runs (ops.perform call k) during (some (.error e)) := by
  refine ⟨⟨ops.erase state change, hname⟩, dif_pos hname, fun reg pass k => ?_⟩
  have hpass : reg.ensure pass (.crud ⟨ops.erase state change, hname⟩) k = ops.protocol pass k :=
    Ops.erases_erase.reconcile pass k
  refine ⟨hpass, ?_⟩
  rw [hpass]
  exact Ops.raises_protocol pass

/-! ### A flag that should be up -/

/-- The flag is looked at, or set. -/
def flagpole : Interface where
  Request := Option Bool
  Reply
    | none => Bool
    | some _ => Except Error Unit

/-- It is set only if it has to be. -/
def flag : Ops flagpole Unit Bool Bool where
  name := "flag"
  perform
    | .getCurrent, _ => .ask (I := flagpole) none fun up => .done (.ok up)
    | .getDesired, _ => .done (.ok true)
    | .newPatch .update true _, _ => .done (.ok {})
    | .newPatch .update false desired, _ => .done (.ok { create := some desired })
    | .newPatch .delete true _, _ => .done (.ok { delete := some false })
    | .newPatch .delete false _, _ => .done (.ok {})
    | .apply _ up, _ => .request (I := flagpole) (some up)

/-- Whether it is up, as a state. -/
def flagState : Embedding (Bool ⊕ Bool) Bool where
  typeName := "State"
  inject := .inl
  project? := Sum.getLeft?
  project?_inject _ := rfl

/-- Whether to put it up, as a change. -/
def flagChange : Embedding (Bool ⊕ Bool) Bool where
  typeName := "Change"
  inject := .inr
  project? := Sum.getRight?
  project?_inject _ := rfl

/-- An update pass looks at it, and puts it up if it is down. -/
theorem Crud.refines_protocol_flag :
    ∃ c : Crud flagpole Unit (Bool ⊕ Bool), Crud.ofOps (flag.erase flagState flagChange) = .ok c ∧
      ∀ reg : Registry flagpole Unit (Bool ⊕ Bool) Unit,
        reg.ensure .update (.crud c) () = .ask (I := flagpole) none fun up : Bool =>
          match up with
          | true => .done (.ok ())
          | false => .ask (I := flagpole) (some true) .done := by
  obtain ⟨c, hc, hpass⟩ := Crud.refines_protocol flagState flagChange flag (by decide)
  refine ⟨c, hc, fun reg => ?_⟩
  rw [(hpass reg .update ()).1]
  refine congrArg (Program.ask (I := flagpole) none) (funext fun up : Bool => ?_)
  cases up with
  | true => rfl
  | false =>
    refine congrArg (Program.ask (I := flagpole) (some true))
      (funext fun r : Except Error Unit => ?_)
    cases r with
    | ok u => rfl
    | error e => rfl

end Reconciler
