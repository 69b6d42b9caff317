import Reconciler.Proofs.Resource.Layering

/-!
# Signed signals

The log of a run does not tell who made an entry. Every layer of a stack may log, several of them
may log the same, and the resource beneath may log whatever it likes. To speak about the entries of
one layer, the stack is run with notes and with signed signals: it is put together by the same
`Decorator.around` as before, but whatever a layer signals is signed with the layer and those
beneath it, before it gets to the layers above. A signed signal is a question that has no answer,
like a note, so a layer above cannot sign it again.

Without notes and signatures the program is the plain one again. So every run of a decorated pass is
a run with signed signals, without the signatures.

## Main definitions

* `signing` : the interface with signed signals
* `Program.signed` : a program that signs what it signals
* `Program.aroundSigned` : a layer that signs what it signals
* `Stack.signed` : a pass whose layers sign what they signal
* `unsigned` : a run without notes and signatures

## Main results

* `Stack.bare_signed` : without them it is the pass of the decorated resource
* `exists_run_of_bare` : every complete run of it is a run with them, without them
* `runs_signed` : a program that signs does what it would do by itself
* `runs_aroundSigned` : a call in a layer
* `ensures_allSigned_throughSigned` : no layer above signs again
-/

namespace Reconciler

open Program

variable {I : Interface} {K S C P ι α β : Type}

/-! ### Signing -/

/-- The interface, with signals that are signed with a layer and those beneath it. If there are none
then the signal is from the resource itself. -/
abbrev signing (I : Interface) : Interface where
  Request := I.Request ⊕ (List Decorator × Signal)
  Reply
    | .inl q => I.Reply q
    | .inr _ => Unit

namespace Program

/-- A signed signal is given, whoever signed it. -/
def unsign : (q : (signing I).Request) → Program I ((signing I).Reply q)
  | .inl q => request q
  | .inr (_, s) => .signal s (.done ())

/-- The program that is left without notes and signatures. -/
def bare (p : Program (noting (signing I)) α) : Program I α := (p.interpret forget).interpret unsign

/-- A program that signs what it signals. What was signed before stays as it is. -/
def signed (layers : List Decorator) :
    Program (noting (signing I)) α → Program (noting (signing I)) α
  | .done a => .done a
  | .unfinished => .unfinished
  | .signal s next => .ask (I := noting (signing I)) (.inl (.inr (layers, s))) fun _ =>
      next.signed layers
  | .sleep d next => .sleep d (next.signed layers)
  | .moment next => .moment fun m => (next m).signed layers
  | .ask q next => .ask q fun r => (next r).signed layers

/-- A call of the resource itself, which signs with no layers at all. -/
def beneath (p : Program I α) : Program (noting (signing I)) α :=
  (p.interpret fun q => .ask (I := noting (signing I)) (.inl (.inl q)) .done).signed []

/-- A call through a layer with others beneath it, which signs what it signals and makes a note when
the call comes back. -/
def aroundSigned (d : Decorator) (ds : List Decorator) (resource : String) (op : Operation)
    (p : Program (noting (signing I)) (Except Error α)) :
    Program (noting (signing I)) (Except Error α) :=
  ((d.around resource op p).signed (d :: ds)).reported (d :: ds) resource op

/-- A call through layers that do so. -/
def throughSigned (resource : String) (op : Operation)
    (body : Program (noting (signing I)) (Except Error α)) :
    List Decorator → Program (noting (signing I)) (Except Error α)
  | [] => body.reported [] resource op
  | d :: ds => aroundSigned d ds resource op (body.throughSigned resource op ds)

theorem bare_bind (p : Program (noting (signing I)) α)
    (f : α → Program (noting (signing I)) β) :
    (p.bind f).bare = p.bare.bind fun a => (f a).bare := by
  rw [bare, interpret_bind, interpret_bind]
  rfl

@[simp] theorem bare_reported (layers : List Decorator) (resource : String) (op : Operation)
    (p : Program (noting (signing I)) (Except Error α)) :
    (p.reported layers resource op).bare = p.bare := by
  rw [bare, interpret_reported, bare]

@[simp] theorem bare_signed (layers : List Decorator) (p : Program (noting (signing I)) α) :
    (p.signed layers).bare = p.bare := by
  induction p with
  | done a => rfl
  | unfinished => rfl
  | signal s next ih => exact congrArg (Program.signal s) ih
  | sleep d next ih => exact congrArg (Program.sleep d) ih
  | moment next ih => exact congrArg Program.moment (funext ih)
  | ask q next ih =>
    have hrest : (fun r => ((next r).signed layers).bare) = fun r => (next r).bare := funext ih
    exact (bare_bind (request q) _).trans (hrest ▸ (bare_bind (request q) next).symm)

@[simp] theorem bare_beneath (p : Program I α) : p.beneath.bare = p := by
  rw [beneath, bare_signed, bare, interpret_interpret, interpret_interpret]
  exact interpret_ask p

theorem bare_aroundSigned (d : Decorator) (ds : List Decorator) (resource : String)
    (op : Operation) (p : Program (noting (signing I)) (Except Error α)) :
    (aroundSigned d ds resource op p).bare = d.around resource op p.bare := by
  rw [aroundSigned, bare_reported, bare_signed, bare, Decorator.interpret_around,
    Decorator.interpret_around, bare]

/-- Without notes and signatures the layers are decorators. -/
theorem bare_throughSigned (resource : String) (op : Operation)
    (body : Program (noting (signing I)) (Except Error α)) (ds : List Decorator) :
    (body.throughSigned resource op ds).bare =
      ds.foldr (fun d p => d.around resource op p) body.bare := by
  induction ds with
  | nil => exact bare_reported [] resource op body
  | cons d ds ih => rw [throughSigned, bare_aroundSigned, ih, List.foldr_cons]

end Program

/-! ### Stacks that sign -/

/-- The resource with layers around its calls, each of which signs what it signals. -/
def Ops.signed (ops : Ops I K S C) (ds : List Decorator) : Ops (noting (signing I)) K S C where
  name := ops.name
  perform c k := (ops.perform c k).beneath.throughSigned ops.name c.operation ds

theorem Ops.answeredBy_signed (ops : Ops I K S C) (ds : List Decorator) :
    ((ops.signed ds).answeredBy forget).answeredBy unsign = ds.foldr Ops.decorate ops := by
  have hperform : (((ops.signed ds).answeredBy forget).answeredBy unsign).perform =
      (ds.foldr Ops.decorate ops).perform := by
    funext c k
    rw [Ops.perform_foldr_decorate]
    refine (bare_throughSigned _ _ _ ds).trans ?_
    rw [bare_beneath]
  have hname : (((ops.signed ds).answeredBy forget).answeredBy unsign).name =
      (ds.foldr Ops.decorate ops).name := (Ops.name_foldr_decorate ds ops).symm
  exact congrArg₂ Ops.mk hname hperform

namespace Stack

variable (s : Stack I K P ι) (reg : Registry I K P ι) (pass : Pass) (k : K)

/-- A pass of the resource with the decorators around its calls, which sign what they signal. -/
def signedCore : Program (noting (signing I)) (Except Error Unit) :=
  match s.base with
  | .crud c => (c.ops.signed s.calls).reconcile pass k
  | r => (reg.ensure pass r k).beneath

/-- A pass of the resource with all the decorators, which sign what they signal. -/
def signed : Program (noting (signing I)) (Except Error Unit) :=
  (s.signedCore reg pass k).throughSigned (reg.name s.base) pass.operation s.layers

theorem bare_signedCore : (s.signedCore reg pass k).bare = reg.ensure pass s.core k := by
  rcases s with ⟨i | ⟨d, inner⟩ | c, calls, layers⟩
  · exact bare_beneath _
  · exact bare_beneath _
  · change (((c.ops.signed calls).reconcile pass k).interpret forget).interpret unsign =
      (calls.foldr Ops.decorate c.ops).reconcile pass k
    rw [Ops.reconcile_eq_protocol, Ops.reconcile_eq_protocol, ← Ops.protocol_answeredBy,
      ← Ops.protocol_answeredBy, Ops.answeredBy_signed]

/-- Without notes and signatures it is a pass of the decorated resource. -/
theorem bare_signed : (s.signed reg pass k).bare = reg.ensure pass s.resource k := by
  rw [signed, bare_throughSigned, bare_signedCore, resource, reg.ensure_foldr_layer, name_core]

end Stack

/-! ### Runs with signatures -/

/-- The act, as a program with these layers signs it. -/
def Program.Act.sign (layers : List Decorator) : Act (noting (signing I)) → Act (noting (signing I))
  | .signalled s => .asked (I := noting (signing I)) (.inl (.inr (layers, s))) ()
  | a => a

/-- The act, without a signature. -/
def Program.Act.unsigned : Act (signing I) → Act I
  | .signalled s => .signalled s
  | .slept d => .slept d
  | .looked m => .looked m
  | .asked (.inl q) r => .asked q r
  | .asked (.inr (_, s)) _ => .signalled s

/-- A run without its notes and signatures. -/
def unsigned (as : List (Act (noting (signing I)))) : List (Act I) := (plain as).map Act.unsigned

/-- Given at length, the signed signals are signals. -/
theorem unsigned_of_expands {as : List (Act (signing I))} {bs : List (Act I)}
    (h : Expands unsign as bs) : as.map Act.unsigned = bs := by
  induction h with
  | nil => rfl
  | signalled s _ ih => exact congrArg (_ :: ·) ih
  | slept d _ ih => exact congrArg (_ :: ·) ih
  | looked m _ ih => exact congrArg (_ :: ·) ih
  | @asked q rep during hq as bs _ ih =>
    cases q with
    | inl q =>
      obtain rfl := runs_request hq
      exact congrArg (_ :: ·) ih
    | inr signature =>
      have hq : Runs (.signal signature.2 (.done ())) during (some rep) := hq
      cases hq with
      | step hs hrest =>
        cases hs
        rw [hrest.of_done.1]
        exact congrArg (_ :: ·) ih

/-- A complete run of the plain program is a complete run with notes and signatures, without
them. -/
theorem exists_run_of_bare {p : Program (noting (signing I)) α} {as : List (Act I)} {a : α}
    (h : Runs p.bare as (some a)) : ∃ bs, Runs p bs (some a) ∧ unsigned bs = as := by
  obtain ⟨cs, hcs, hexpands⟩ := h.of_interpret
  obtain ⟨bs, hbs, rfl⟩ := exists_run_of_forget hcs
  exact ⟨bs, hbs, unsigned_of_expands hexpands⟩

theorem Program.Step.of_signed {layers : List Decorator} {p : Program (noting (signing I)) α}
    {a : Act (noting (signing I))} {q : Program (noting (signing I)) α}
    (h : Step (p.signed layers) a q) :
    ∃ a' p', Step p a' p' ∧ a = a'.sign layers ∧ q = p'.signed layers := by
  cases p with
  | done b => cases h
  | unfinished => cases h
  | signal s next => cases h with | ask u => exact ⟨_, _, .signal s next, rfl, rfl⟩
  | sleep d next => cases h; exact ⟨_, _, .sleep d next, rfl, rfl⟩
  | moment next => cases h with | moment m => exact ⟨_, _, .moment m next, rfl, rfl⟩
  | ask q next => cases h with | ask r => exact ⟨_, _, .ask r next, rfl, rfl⟩

/-- A program that signs does what it would do by itself, except that it signs what it signals. -/
theorem runs_signed {layers : List Decorator} {p : Program (noting (signing I)) α}
    {as : List (Act (noting (signing I)))} {r : Option α} (h : Runs (p.signed layers) as r) :
    ∃ as', Runs p as' r ∧ as = as'.map (Act.sign layers) := by
  generalize hp : p.signed layers = p₁ at h
  induction h generalizing p with
  | cut => exact ⟨[], .cut p, rfl⟩
  | done b =>
    cases p with
    | done a => cases hp; exact ⟨[], .done _, rfl⟩
    | _ => cases hp
  | step hs hr ih =>
    subst hp
    obtain ⟨a, p', hp', rfl, rfl⟩ := hs.of_signed
    obtain ⟨as, hruns, rfl⟩ := ih rfl
    exact ⟨a :: as, .step hp' hruns, rfl⟩

/-- What happens in a layer is signed, and then the call comes back from it. -/
theorem runs_aroundSigned {d : Decorator} {ds : List Decorator} {resource : String}
    {op : Operation} {p : Program (noting (signing I)) (Except Error α)}
    {as : List (Act (noting (signing I)))} {x : Except Error α}
    (h : Runs (aroundSigned d ds resource op p) as (some x)) :
    ∃ acts, Runs (d.around resource op p) acts (some x) ∧
      as = acts.map (Act.sign (d :: ds)) ++
        [.asked (.inr ⟨d :: ds, resource, op, error? x⟩) ()] := by
  obtain ⟨before, rfl, hbefore⟩ := runs_reported h
  obtain ⟨acts, hacts, rfl⟩ := runs_signed hbefore
  exact ⟨acts, hacts, rfl⟩

/-! ### Nothing is left unsigned -/

/-- A signature is left as it is, whoever else signs. -/
theorem Program.Act.sign_sign (layers layers' : List Decorator) (a : Act (noting (signing I))) :
    (a.sign layers).sign layers' = a.sign layers := by
  cases a with
  | _ => rfl

/-- Nobody can sign any of the acts. -/
def AllSigned (as : List (Act (noting (signing I)))) : Prop :=
  ∀ a ∈ as, ∀ layers, a.sign layers = a

theorem accrues_allSigned : Accrues (AllSigned (I := I)) := accrues_forall _

theorem AllSigned.map_sign {as : List (Act (noting (signing I)))} (h : AllSigned as)
    (layers : List Decorator) : as.map (Act.sign layers) = as :=
  (List.map_congr_left fun a ha => h a ha layers).trans (List.map_id' as)

theorem ensures_allSigned_signed (layers : List Decorator) (p : Program (noting (signing I)) α) :
    Ensures AllSigned (p.signed layers) := by
  intro as x h a ha layers'
  obtain ⟨as, -, rfl⟩ := runs_signed h
  obtain ⟨a, -, rfl⟩ := List.mem_map.1 ha
  exact a.sign_sign layers layers'

theorem Program.Ensures.allSigned_reported {layers : List Decorator} {resource : String}
    {op : Operation} {p : Program (noting (signing I)) (Except Error α)}
    (hp : Ensures AllSigned p) : Ensures AllSigned (p.reported layers resource op) := by
  intro as x h
  obtain ⟨before, rfl, hbefore⟩ := runs_reported h
  refine accrues_allSigned.append (hp before x hbefore) fun a ha layers' => ?_
  obtain rfl := List.mem_singleton.1 ha
  rfl

theorem ensures_allSigned_throughSigned {resource : String} {op : Operation}
    {body : Program (noting (signing I)) (Except Error α)} (hbody : Ensures AllSigned body)
    (ds : List Decorator) : Ensures AllSigned (body.throughSigned resource op ds) := by
  cases ds with
  | nil => exact hbody.allSigned_reported
  | cons d ds => exact (ensures_allSigned_signed (d :: ds) _).allSigned_reported

theorem Stack.ensures_allSigned_signedCore (s : Stack I K P ι) (reg : Registry I K P ι)
    (pass : Pass) (k : K) : Ensures AllSigned (s.signedCore reg pass k) := by
  rcases s with ⟨i | ⟨d, inner⟩ | c, calls, layers⟩
  · exact ensures_allSigned_signed [] _
  · exact ensures_allSigned_signed [] _
  · refine Ops.ensures_reconcile accrues_allSigned (fun call => ?_) pass
    exact ensures_allSigned_throughSigned (ensures_allSigned_signed [] _) calls

theorem Stack.ensures_allSigned (s : Stack I K P ι) (reg : Registry I K P ι) (pass : Pass) (k : K) :
    Ensures AllSigned (s.signed reg pass k) :=
  ensures_allSigned_throughSigned (s.ensures_allSigned_signedCore reg pass k) s.layers

end Reconciler
