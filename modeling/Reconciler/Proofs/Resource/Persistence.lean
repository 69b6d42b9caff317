import Reconciler.Proofs.Backoff
import Reconciler.Proofs.Program.Script
import Reconciler.Proofs.Resource.Protocol
import Reconciler.Proofs.Retry.Record

/-!
# Calls that are retried in place

Spliced into a CRUD resource, a retry decorator repeats the call that fails and nothing else. How
often is between the call and the policy: if the policy allows `c` retries, then a call that meets
with `n` retryable failures before anything else is made `1 + min c n` times, each time with the
same payloads. What the other calls met with plays no part, since every call starts from a fresh
cursor.

So the pass is the pass of a resource that persists: each of its calls has at once the answer that
the last attempt has. Against a script that says how the attempts go, the undecorated pass over the
persisting script gives the steps, their payloads and the result, and the decorated pass over the
script itself makes each of the steps as often as it takes.

The statements speak about calls as questions. A pass over any resource is the pass of
`Ops.calling` with its questions answered by the resource.

## Main definitions

* `setbacks` : how many retryable failures a call meets with
* `persist` : the answer of the last attempt
* `Ops.calling` : the resource whose calls are questions

## Main results

* `yields_retry` : one retried call
* `Ops.protocol_decorate` : a decorated pass, call by call
* `Crud.retries_in_place` : a pass over a resource with a spliced retry decorator
-/

namespace Reconciler

open Program

variable {I J : Interface} {K S C P ι σ α : Type} {Q : Type} {R : Q → Type}

/-! ### One call under retry -/

/-- What is left after a question was asked so many times. -/
def stateAfter (script : Script Q R σ) (q : Q) : Nat → σ → σ
  | 0, s => s
  | n + 1, s => stateAfter script q n (script q s).2

/-- How many retryable failures there are before the first success or failure for good, if a
question is asked again and again. -/
noncomputable def setbacks (script : Script Q R σ) (q : Q) (s : σ) : ℕ∞ :=
  open Classical in
  if h : ∃ n, ¬ IsSetback (script q (stateAfter script q n s)).1 then Nat.find h else ⊤

/-- The answer to the last attempt, and what it leaves, if a question may be repeated `c` times. -/
noncomputable def persist (c : ℕ∞) (script : Script Q R σ) : Script Q R σ := fun q s =>
  script q (stateAfter script q (min c (setbacks script q s)).toNat s)

/-- A number of attempts at a question, with what the attempts before left. -/
def attempts (script : Script Q R σ) (q : Q) : Nat → σ → List (Q × σ)
  | 0, _ => []
  | n + 1, s => (q, s) :: attempts script q n (script q s).2

variable {script : Script Q R σ} {q : Q} {s : σ} {c : ℕ∞}

theorem map_fst_attempts (n : Nat) (s : σ) :
    (attempts script q n s).map Prod.fst = List.replicate n q := by
  induction n generalizing s with
  | zero => rfl
  | succ n ih => rw [attempts, List.map_cons, ih, List.replicate_succ]

theorem stateAfter_add (m n : Nat) (s : σ) :
    stateAfter script q (m + n) s = stateAfter script q n (stateAfter script q m s) := by
  induction m generalizing s with
  | zero => rw [Nat.zero_add, stateAfter]
  | succ m ih => rw [Nat.succ_add, stateAfter, ih, stateAfter]

theorem attempts_add (m n : Nat) (s : σ) :
    attempts script q (m + n) s =
      attempts script q m s ++ attempts script q n (stateAfter script q m s) := by
  induction m generalizing s with
  | zero => rw [Nat.zero_add, stateAfter, attempts, List.nil_append]
  | succ m ih => rw [Nat.succ_add, attempts, ih, attempts, stateAfter, List.cons_append]

theorem setbacks_eq_zero (h : ¬ IsSetback (script q s).1) : setbacks script q s = 0 := by
  classical
  have hex : ∃ n, ¬ IsSetback (script q (stateAfter script q n s)).1 := ⟨0, h⟩
  rw [setbacks, dif_pos hex, (Nat.find_eq_zero hex).2 h, Nat.cast_zero]

/-- After one setback there is one less to come. -/
theorem setbacks_eq_succ (h : IsSetback (script q s).1) :
    setbacks script q s = setbacks script q (script q s).2 + 1 := by
  classical
  by_cases hex : ∃ n, ¬ IsSetback (script q (stateAfter script q n (script q s).2)).1
  · obtain ⟨n, hn⟩ := hex
    have hex' : ∃ n, ¬ IsSetback (script q (stateAfter script q n s)).1 := ⟨n + 1, hn⟩
    rw [setbacks, setbacks, dif_pos hex', dif_pos ⟨n, hn⟩,
      Nat.find_comp_succ hex' ⟨n, hn⟩ (by simpa [stateAfter] using h)]
    rfl
  · have hex' : ¬ ∃ n, ¬ IsSetback (script q (stateAfter script q n s)).1 := by
      rintro ⟨_ | n, hn⟩
      · exact hn h
      · exact hex ⟨n, hn⟩
    rw [setbacks, setbacks, dif_neg hex, dif_neg hex', top_add]

/-- A retry less, and a setback less. -/
theorem min_setbacks_eq_succ (hc : c ≠ 0) (h : IsSetback (script q s).1) :
    min c (setbacks script q s) = min (c - 1) (setbacks script q (script q s).2) + 1 := by
  have hsub : c - 1 + 1 = c := tsub_add_cancel_of_le (Order.one_le_iff_ne_zero.2 hc)
  rw [setbacks_eq_succ h, ← hsub, min_add_add_right, hsub]

/-- Either a question is asked only once, or it is repeated after a setback. -/
theorem min_setbacks_eq_zero_iff :
    min c (setbacks script q s) = 0 ↔ c = 0 ∨ ¬ IsSetback (script q s).1 := by
  by_cases h : IsSetback (script q s).1
  · simp [setbacks_eq_succ h, h]
  · simp [setbacks_eq_zero h, h]

section Loop

variable {answer : (q : J.Request) → σ → J.Reply q × σ} {p : Program J (Except Error α)}
  {notify : UInt32 → Error → Duration → Program J Unit} {cursor : Backoff}
  {log : List (J.Request × σ)} {x : Except Error α} {t : σ}

/-- The last attempt: it settles the matter, or the policy is exhausted. -/
theorem yields_retryLoop_last (hp : Yields answer p s log x t)
    (hlast : (∀ m, (cursor.next m).1 = none) ∨ ¬ IsSetback x) (n : Nat) (attempt : UInt32) :
    Yields answer (retryLoop p notify (n + 1) cursor attempt) s log x t := by
  rw [← List.append_nil log]
  refine hp.bind ?_
  cases x with
  | ok a => exact .done _ _
  | error e =>
    dsimp only
    split
    · next hretryable =>
      have hnone := hlast.resolve_right (not_not.2 ((isSetback_error e).2 hretryable))
      refine .moment fun m => ?_
      rcases hnext : cursor.next m with ⟨_ | delay, rest⟩
      · exact .done _ _
      · simpa [hnext] using hnone m
    · exact .done _ _

variable (hnotify : ∀ attempt e delay s, Yields answer (notify attempt e delay) s [] () s)
include hnotify

/-- An attempt that is followed by another one. -/
theorem yields_retryLoop_again {n : Nat} {attempt : UInt32} {log' : List (J.Request × σ)}
    {y : Except Error α}
    {u : σ} (hp : Yields answer p s log x t) (hsetback : IsSetback x)
    (hsome : ∀ m, (cursor.next m).1.isSome = true)
    (hrest : ∀ m, Yields answer (retryLoop p notify n (cursor.next m).2 (attempt + 1)) t log' y u) :
    Yields answer (retryLoop p notify (n + 1) cursor attempt) s (log ++ log') y u := by
  obtain ⟨e, rfl, hretryable⟩ := hsetback
  refine hp.bind ?_
  simp only [hretryable, if_true]
  refine .moment fun m => ?_
  have hagain := hrest m
  rcases hnext : cursor.next m with ⟨_ | delay, rest⟩
  · simpa [hnext] using hsome m
  · rw [hnext] at hagain
    have hnoticed := hnotify attempt e delay t
    have hwaited : Yields answer
        (if delay.isZero then retryLoop p notify n rest (attempt + 1)
          else .sleep delay (retryLoop p notify n rest (attempt + 1))) t log' y u := by
      split
      · exact hagain
      · exact .sleep delay hagain
    exact hnoticed.bind hwaited

end Loop

section Request

variable {notify : UInt32 → Error → Duration → Program (fallible Q R) Unit} {cursor : Backoff}

/-- A question by itself is one attempt. -/
theorem yields_request (q : Q) (s : σ) : Yields (I := fallible Q R) script
    (request (I := fallible Q R) q) s [(q, s)] (script q s).1 (script q s).2 :=
  .ask (.done _ _)

variable (hnotify : ∀ attempt e delay s,
  Yields (I := fallible Q R) script (notify attempt e delay) s [] () s)
include hnotify

/-- A retry loop makes the attempts that it should, and has the answer of the last one. -/
theorem yields_retryLoop {n k : Nat} (hk : k < n) (hcursor : cursor.Allows c)
    (hmin : min c (setbacks script q s) = k) (attempt : UInt32) :
    Yields (I := fallible Q R) script
      (retryLoop (request (I := fallible Q R) q) notify n cursor attempt) s
      (attempts script q (k + 1) s) (script q (stateAfter script q k s)).1
      (script q (stateAfter script q k s)).2 := by
  -- On the look-ahead: after a setback the policy allows one retry less, and there is one setback
  -- less to come, so that one attempt less is to be made.
  induction n generalizing k c s cursor attempt with
  | zero => omega
  | succ n ih =>
    cases k with
    | zero =>
      refine yields_retryLoop_last (yields_request q s)
        ((min_setbacks_eq_zero_iff.1 hmin).imp_left ?_) n attempt
      intro hc m
      simpa [hc] using hcursor.isSome m
    | succ k =>
      have hne : min c (setbacks script q s) ≠ 0 := by simp [hmin]
      obtain ⟨hc, hsetback⟩ := not_or.1 (mt min_setbacks_eq_zero_iff.2 hne)
      have hsetback := not_not.1 hsetback
      have hmin' : min (c - 1) (setbacks script q (script q s).2) = k := by
        rw [min_setbacks_eq_succ hc hsetback, Nat.cast_succ] at hmin
        exact ENat.add_left_injective_of_ne_top ENat.one_ne_top hmin
      refine yields_retryLoop_again hnotify (yields_request q s) hsetback
        (fun m => (hcursor.isSome m).2 (pos_iff_ne_zero.2 hc)) fun m => ?_
      exact ih (by omega) (hcursor.next m) hmin' (attempt + 1)

/-- A retried question is asked as often as it takes, and has the answer of the last attempt. -/
theorem yields_retry {policy : RetryPolicy} (hpolicy : policy.Allows c)
    (hhorizon : min c (setbacks script q s) < policy.horizon) :
    Yields (I := fallible Q R) script (retry policy notify (request (I := fallible Q R) q)) s
      (attempts script q (1 + min c (setbacks script q s)).toNat s) (persist c script q s).1
      (persist c script q s).2 := by
  obtain ⟨k, hk⟩ := ENat.ne_top_iff_exists.1 hhorizon.ne_top
  have hcount : (1 + min c (setbacks script q s)).toNat = k + 1 := by
    rw [← hk, add_comm, ← Nat.cast_succ, ENat.toNat_natCast]
  rw [hcount, persist, ← hk, ENat.toNat_natCast]
  rw [← hk, Nat.cast_lt] at hhorizon
  exact .moment fun m => yields_retryLoop hnotify hhorizon (hpolicy m.wall) hk.symm 1

end Request

/-! ### Calls as questions -/

namespace Ops

/-- The questions that are calls of a resource. -/
abbrev Calls (K S C : Type) : Interface := fallible (Call S C × K) fun q => q.1.Reply

/-- The resource whose calls are questions. -/
def calling (K S C : Type) (name : String) : Ops (Calls K S C) K S C where
  name := name
  perform c k := .request (I := Calls K S C) (c, k)

/-- The answers of a resource to these questions. -/
def respond (ops : Ops I K S C) (q : (Calls K S C).Request) :
    Program I ((Calls K S C).Reply q) :=
  ops.perform q.1 q.2

/-- The resource with what its calls ask answered by programs. -/
def answeredBy (ops : Ops I K S C) (g : (q : I.Request) → Program J (I.Reply q)) : Ops J K S C where
  name := ops.name
  perform c k := (ops.perform c k).interpret g

theorem protocol_answeredBy (ops : Ops I K S C) (g : (q : I.Request) → Program J (I.Reply q))
    (pass : Pass) (k : K) :
    (ops.answeredBy g).protocol pass k = (ops.protocol pass k).interpret g := by
  have happly (slot : Slot) (change : Option C) :
      (ops.answeredBy g).applySet slot change k = (ops.applySet slot change k).interpret g := by
    cases change with
    | none => rfl
    | some c => rfl
  simp only [protocol, interpret_andThen, happly]
  rfl

end Ops

theorem Decorator.interpret_around (d : Decorator) (resource : String) (op : Operation)
    (g : (q : I.Request) → Program J (I.Reply q)) (body : Program I (Except Error α)) :
    (d.around resource op body).interpret g = d.around resource op (body.interpret g) := by
  cases d with
  | logging =>
    rw [around, around, interpret_bind]
    simp only [interpret_bind, interpret_log]
    rfl
  | retry policy => exact interpret_retry g (fun _ _ _ => rfl) policy body
  | metrics handle =>
    rw [around, around]
    simp only [interpret_bind, interpret_measure]
    rfl

theorem Decorator.interpret_foldr_around (ds : List Decorator) (resource : String) (op : Operation)
    (g : (q : I.Request) → Program J (I.Reply q)) (body : Program I (Except Error α)) :
    (ds.foldr (fun d p => d.around resource op p) body).interpret g =
      ds.foldr (fun d p => d.around resource op p) (body.interpret g) := by
  induction ds with
  | nil => rfl
  | cons d ds ih => rw [List.foldr_cons, List.foldr_cons, interpret_around, ih]

namespace Ops

/-- A resource is its calls, answered. -/
theorem answeredBy_respond (ops : Ops I K S C) (d : Decorator) :
    ((calling K S C ops.name).decorate d).answeredBy ops.respond = ops.decorate d := by
  have hperform (c : Call S C) (k : K) :
      (d.around ops.name c.operation (request (I := Calls K S C) (c, k))).interpret ops.respond =
        d.around ops.name c.operation (ops.perform c k) := by
    rw [Decorator.interpret_around, interpret_request]
    rfl
  simp only [answeredBy, decorate, calling, hperform]

/-- A decorated pass is the decorated pass over calls, answered by the resource. -/
theorem protocol_decorate (ops : Ops I K S C) (d : Decorator) (pass : Pass) (k : K) :
    (ops.decorate d).protocol pass k =
      (((calling K S C ops.name).decorate d).protocol pass k).interpret ops.respond := by
  rw [← protocol_answeredBy, answeredBy_respond]

theorem stepwise_protocol (name : String) (pass : Pass) (k : K) :
    Stepwise ((calling K S C name).protocol pass k) := by
  have happly (slot : Slot) (change : Option C) :
      Stepwise ((calling K S C name).applySet slot change k) := by
    cases change with
    | none => exact stepwise_ok ()
    | some c => exact stepwise_request _
  exact (stepwise_request _).andThen fun _ => (stepwise_request _).andThen fun _ =>
    (stepwise_request _).andThen fun _ => (happly _ _).andThen fun _ =>
      (happly _ _).andThen fun _ => happly _ _

/-- Decorating calls decorates what answers them. -/
theorem decorate_calling (name : String) (d : Decorator) :
    (calling K S C name).decorate d = (calling K S C name).answeredBy fun q : Call S C × K =>
      d.around name q.1.operation (request (I := Calls K S C) q) := by
  have hperform (c : Call S C) (k : K) :
      ((calling K S C name).perform c k).interpret (fun q : Call S C × K =>
          d.around name q.1.operation (request (I := Calls K S C) q)) =
        d.around name c.operation (request (I := Calls K S C) (c, k)) := interpret_request _ _
  simp only [answeredBy, hperform]
  rfl

/-- Each step of the pass is repeated for itself. -/
theorem yields_protocol_retry {name : String} {policy : RetryPolicy} {c : ℕ∞}
    (hpolicy : policy.Allows c) {pass : Pass} {k : K}
    {script : Script (Call S C × K) (fun q => q.1.Reply) σ} {s t : σ}
    {steps : List ((Call S C × K) × σ)} {x : Except Error Unit}
    (h : Yields (I := Calls K S C) (persist c script) ((calling K S C name).protocol pass k) s
      steps x t)
    (hhorizon : ∀ u ∈ steps, min c (setbacks script u.1 u.2) < policy.horizon) :
    Yields (I := Calls K S C) script
      (((calling K S C name).decorate (.retry policy)).protocol pass k) s
      (steps.flatMap fun u => attempts script u.1 (1 + min c (setbacks script u.1 u.2)).toNat u.2)
      x t := by
  rw [decorate_calling, protocol_answeredBy]
  refine h.interpret (fun q s => attempts script q (1 + min c (setbacks script q s)).toNat s)
    fun u hu => ?_
  exact yields_retry (fun attempt e delay s => yields_log _ s) hpolicy (hhorizon u hu)

end Ops

/-! ### The resource as it is used -/

/-- A retry decorator is spliced into a typed resource that has a name, and its pass is the
decorated pass over calls, answered by the resource.

Given a script, take the steps that the undecorated pass makes if every call persists. They stop at
the first one that fails, and the last one decides the result. The decorated pass makes exactly
these steps, in this order and with these payloads, each `1 + min c n` times, where `n` is the
number of setbacks that this step meets with, and it comes to the same result. The policy has to
look ahead over that many attempts. -/
theorem Crud.retries_in_place (state : Embedding P S) (change : Embedding P C) (ops : Ops I K S C)
    (hname : ops.name ≠ "") (reg : Registry I K P ι) {policy : RetryPolicy} {c : ℕ∞}
    (hpolicy : policy.Allows c) :
    ∃ base decorated, Crud.ofOps (ops.erase state change) = .ok base ∧
      reg.wrapOne (.retry policy) (.crud base) = .ok decorated ∧
      ∀ (pass : Pass) (k : K),
        reg.ensure pass decorated k =
            (((Ops.calling K S C ops.name).decorate (.retry policy)).protocol pass k).interpret
              ops.respond ∧
          ∀ (σ : Type) (script : Script (Call S C × K) (fun q => q.1.Reply) σ) (s : σ),
            ∃ (steps : List ((Call S C × K) × σ)) (x : Except Error Unit) (t : σ),
              Yields (I := Ops.Calls K S C) (persist c script)
                  ((Ops.calling K S C ops.name).protocol pass k) s steps x t ∧
                Orderly (persist c script) steps x ∧
                ((∀ u ∈ steps, min c (setbacks script u.1 u.2) < policy.horizon) →
                  ∃ log, Yields (I := Ops.Calls K S C) script
                      (((Ops.calling K S C ops.name).decorate (.retry policy)).protocol pass k)
                      s log x t ∧
                    log.map Prod.fst = steps.flatMap fun u =>
                      List.replicate (1 + min c (setbacks script u.1 u.2)).toNat u.1) := by
  refine ⟨⟨ops.erase state change, hname⟩, _, dif_pos hname, reg.wrapOne_crud _ _,
    fun pass k => ⟨?_, fun σ script s => ?_⟩⟩
  · have herases : (ops.decorate (.retry policy)).Erases state change
        ((ops.erase state change).decorate (.retry policy)) := Ops.erases_erase.decorate _
    exact (herases.reconcile pass k).trans (ops.protocol_decorate _ pass k)
  · obtain ⟨steps, x, t, hsteps, horderly⟩ :=
      Ops.stepwise_protocol ops.name pass k σ (persist c script) s
    refine ⟨steps, x, t, hsteps, horderly, fun hhorizon => ?_⟩
    refine ⟨_, Ops.yields_protocol_retry hpolicy hsteps hhorizon, ?_⟩
    rw [List.map_flatMap]
    simp only [map_fst_attempts]

/-! ### A resource that stumbles -/

/-- What a flag that is down answers. -/
def downReply : (call : Call Bool Bool) → call.Reply
  | .getCurrent => false
  | .getDesired => true
  | .newPatch .. => { create := some true }
  | .apply .. => ()

/-- Every second attempt fails. -/
def stumbling : Script (Call Bool Bool × Unit) (fun q => q.1.Reply) Bool
  | q, true => (.ok (downReply q.1), false)
  | _, false => (.error (.resource "flag" "busy" true), true)

theorem setbacks_stumbling (q : Call Bool Bool × Unit) : setbacks stumbling q false = 1 := by
  have hfirst : IsSetback (stumbling q false).1 := ⟨.resource "flag" "busy" true, rfl, rfl⟩
  have hsecond : ¬ IsSetback (stumbling q true).1 := by
    rintro ⟨e, ⟨⟩, -⟩
  rw [setbacks_eq_succ hfirst]
  change setbacks stumbling q true + 1 = 1
  rw [setbacks_eq_zero hsecond, zero_add]

theorem persist_stumbling (q : Call Bool Bool × Unit) :
    persist 1 stumbling q false = (.ok (downReply q.1), false) := by
  rw [persist, setbacks_stumbling, min_self, ENat.toNat_one]
  rfl

/-- The steps of an update pass over it. -/
def flagSteps : List (Call Bool Bool × Unit) :=
  [(.getCurrent, ()), (.getDesired, ()), (.newPatch .update false true, ()),
    (.apply .create true, ())]

/-- If one retry is allowed, each step is asked twice, and the pass succeeds. -/
theorem Crud.retries_in_place_stumbling :
    ∃ log t, Yields (I := Ops.Calls Unit Bool Bool) stumbling
        (((Ops.calling Unit Bool Bool "flag").decorate
          (.retry ⟨.capped .zero 1 0, 2⟩)).protocol .update ()) false log (.ok ()) t ∧
      log.map Prod.fst = flagSteps.flatMap fun q => [q, q] := by
  have hpolicy : RetryPolicy.Allows 1 ⟨.capped .zero 1 0, 2⟩ :=
    RetryPolicy.allows_of_allowance (by simp [Backoff.allowance?])
  obtain ⟨_, _, -, -, hpass⟩ := Crud.retries_in_place flagState flagChange flag (by decide)
    (⟨Empty.elim⟩ : Registry flagpole Unit (Bool ⊕ Bool) Empty) hpolicy
  obtain ⟨steps, x, t, hsteps, -, hlog⟩ := (hpass .update ()).2 Bool stumbling false
  have hplain : Yields (I := Ops.Calls Unit Bool Bool) (persist 1 stumbling)
      ((Ops.calling Unit Bool Bool "flag").protocol .update ()) false
      (flagSteps.map fun q => (q, false)) (.ok ()) false := by
    refine .ask_of (persist_stumbling (.getCurrent, ())) ?_
    refine .ask_of (persist_stumbling (.getDesired, ())) ?_
    refine .ask_of (persist_stumbling (.newPatch .update false true, ())) ?_
    refine .ask_of (persist_stumbling (.apply .create true, ())) ?_
    exact .done _ _
  obtain ⟨rfl, rfl, rfl⟩ := hsteps.unique hplain
  have hbound (u : (Call Bool Bool × Unit) × Bool) :
      min 1 (setbacks stumbling u.1 u.2) < ((2 : ℕ) : ℕ∞) :=
    lt_of_le_of_lt (min_le_left _ _) (Nat.one_lt_cast.2 Nat.one_lt_two)
  obtain ⟨log, hyields, hmap⟩ := hlog fun u _ => hbound u
  refine ⟨log, false, hyields, ?_⟩
  rw [hmap, List.flatMap_map]
  congr 1
  funext q
  rw [setbacks_stumbling, min_self]
  rfl

end Reconciler
