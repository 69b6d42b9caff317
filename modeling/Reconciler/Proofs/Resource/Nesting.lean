import Reconciler.Proofs.Resource.Layers
import Reconciler.Proofs.Resource.Stack

/-!
# Retries around retries

Each attempt that an outer layer makes starts the inner layers afresh. A stack of retry layers
therefore makes rounds of rounds of attempts, and where it stops depends on what every layer has
left at that point. Seen from the resource none of this shows: the attempts follow one another until
one of them is no setback, or until there were as many as the stack allows, and the last one decides
the result. With layers that allow `m₁`, …, `mₙ` retries this number is `(m₁ + 1) * … * (mₙ + 1)`.

One layer carries the induction. If a program makes up to `b` attempts, then a retry loop around it
that allows `m` retries makes up to `b * (m + 1)`: a round of the loop is either the last, with
fewer than `b` setbacks before the end or with no retry left, or it is `b` setbacks, after which the
loop allows one round less.

## Main definitions

* `LastAttempt` : the attempt at which a series of at most so many ends
* `Perseveres` : a program that makes such a series

## Main results

* `Perseveres.retry` : one more layer
* `Registry.Decorated.retries_multiply` : a call of a CRUD resource under a stack of retry layers
-/

namespace Reconciler

open Program

variable {I : Interface} {K P ι σ : Type} {Q : Type} {R : Q → Type}

/-! ### Where a series of attempts ends -/

/-- What the attempts at a question come to, by their number, counted from 0. -/
def resultOf (script : Script Q R σ) (q : Q) (s : σ) (i : Nat) : Except Error (R q) :=
  (script q (stateAfter script q i s)).1

/-- Of at most `bound` attempts at a question the last one is number `k`: every one before it was a
setback, and it is none itself or no other is allowed. -/
structure LastAttempt (script : Script Q R σ) (q : Q) (s : σ) (bound k : Nat) : Prop where
  lt : k < bound
  before : ∀ i < k, IsSetback (resultOf script q s i)
  ends : k + 1 = bound ∨ ¬ IsSetback (resultOf script q s k)

variable {script : Script Q R σ} {q : Q} {s : σ} {b c k : Nat}

theorem resultOf_add (m n : Nat) (s : σ) :
    resultOf script q s (m + n) = resultOf script q (stateAfter script q m s) n := by
  rw [resultOf, stateAfter_add, resultOf]

/-- Some attempt is the last, unless none is allowed. -/
theorem exists_lastAttempt (script : Script Q R σ) (q : Q) (s : σ) (hb : 0 < b) :
    ∃ k, LastAttempt script q s b k := by
  classical
  have hex : ∃ k, k + 1 = b ∨ ¬ IsSetback (resultOf script q s k) := ⟨b - 1, .inl (by omega)⟩
  refine ⟨Nat.find hex, ?_, fun i hi => ?_, Nat.find_spec hex⟩
  · have hle : Nat.find hex ≤ b - 1 := Nat.find_min' hex (.inl (by omega))
    omega
  · exact not_not.1 (not_or.1 (Nat.find_min hex hi)).2

namespace LastAttempt

/-- If all attempts are setbacks then there are as many as are allowed. -/
theorem eq_of_forall (h : LastAttempt script q s b k)
    (hall : ∀ i < b, IsSetback (resultOf script q s i)) : k + 1 = b :=
  h.ends.resolve_right (not_not.2 (hall k h.lt))

/-- The first attempt that is no setback is the last. -/
theorem eq_of_first (h : LastAttempt script q s b k) {i : Nat} (hi : i < b)
    (hbefore : ∀ j < i, IsSetback (resultOf script q s j))
    (hfirst : ¬ IsSetback (resultOf script q s i)) : k = i := by
  rcases Nat.lt_trichotomy k i with hlt | heq | hgt
  · have hend := h.ends.resolve_right (not_not.2 (hbefore k hlt))
    omega
  · exact heq
  · exact absurd (h.before i hgt) hfirst

/-- In the first round of a series. The round is then the last one, or it settles the matter. -/
theorem of_lt (h : LastAttempt script q s (b * (c + 1)) k) (hk : k < b) :
    LastAttempt script q s b k ∧ (c = 0 ∨ ¬ IsSetback (resultOf script q s k)) := by
  have hround (hall : k + 1 = b * (c + 1)) : c = 0 := by
    have hle : b * (c + 1) ≤ b * 1 := by omega
    have hc : c + 1 ≤ 1 := Nat.le_of_mul_le_mul_left hle (by omega)
    omega
  refine ⟨⟨hk, h.before, h.ends.imp_left fun hall => ?_⟩, h.ends.imp_left hround⟩
  rw [hall, hround hall, Nat.zero_add, Nat.mul_one]

/-- After the first round of a series. The round is all setbacks, and the rest is a series with one
round less. -/
theorem of_le (h : LastAttempt script q s (b * (c + 1)) (b + k)) (hb : 0 < b) :
    LastAttempt script q s b (b - 1) ∧ IsSetback (resultOf script q s (b - 1)) ∧
      LastAttempt script q (stateAfter script q b s) (b * c) k := by
  have hbefore := h.before
  have hlt : b + k < b * c + b := h.lt
  refine ⟨⟨by omega, fun i hi => hbefore i (by omega), .inl (by omega)⟩,
    hbefore (b - 1) (by omega), ⟨by omega, fun i hi => ?_, ?_⟩⟩
  · rw [← resultOf_add]
    exact hbefore (b + i) (by omega)
  · rw [← resultOf_add]
    refine h.ends.imp_left fun hall => ?_
    have hall : b + k + 1 = b * c + b := hall
    omega

end LastAttempt

/-! ### One layer around another -/

/-- Against the script the program makes attempts at a question until one is no setback, at most
`bound` of them, and comes to the result of the last. -/
def Perseveres (script : Script Q R σ) (q : Q) (bound : Nat)
    (p : Program (fallible Q R) (Except Error (R q))) : Prop :=
  ∀ s k, LastAttempt script q s bound k → Yields (I := fallible Q R) script p s
    (attempts script q (k + 1) s) (resultOf script q s k) (stateAfter script q (k + 1) s)

theorem perseveres_request (script : Script Q R σ) (q : Q) :
    Perseveres script q 1 (request (I := fallible Q R) q) := by
  intro s k h
  obtain rfl : k = 0 := Nat.lt_one_iff.1 h.lt
  exact yields_request q s

section Layer

variable {p : Program (fallible Q R) (Except Error (R q))}
  {notify : UInt32 → Error → Duration → Program (fallible Q R) Unit}
  (hnotify : ∀ attempt e delay s,
    Yields (I := fallible Q R) script (notify attempt e delay) s [] () s)
include hnotify

theorem Perseveres.retryLoop (hp : Perseveres script q b p) {n : Nat} {cursor : Backoff}
    (hcursor : cursor.Allows c) (hn : c < n) (attempt : UInt32) :
    Perseveres script q (b * (c + 1)) (retryLoop p notify n cursor attempt) := by
  intro s k h
  -- On the look-ahead: each round leaves the loop one retry less.
  induction n generalizing c s k cursor attempt with
  | zero => omega
  | succ n ih =>
    rcases Nat.lt_or_ge k b with hk | hk
    · obtain ⟨hround, hlast⟩ := h.of_lt hk
      refine yields_retryLoop_last (hp s k hround) (hlast.imp_left ?_) n attempt
      intro hc m
      simpa [hc] using hcursor.isSome m
    · obtain ⟨k, rfl⟩ := Nat.exists_eq_add_of_le hk
      have hb : 0 < b := Nat.pos_of_mul_pos_right (Nat.zero_lt_of_lt h.lt)
      obtain ⟨hround, hsetback, hrest⟩ := h.of_le hb
      obtain ⟨c, rfl⟩ : ∃ c', c = c' + 1 :=
        Nat.exists_eq_succ_of_ne_zero (by rintro rfl; exact absurd hrest.lt (Nat.not_lt_zero k))
      have hfirst := hp s (b - 1) hround
      rw [Nat.sub_add_cancel hb] at hfirst
      have hsome (m : Moment) : (cursor.next m).1.isSome = true :=
        (hcursor.isSome m).2 (pos_iff_ne_zero.2 (by simp))
      have hnext (m : Moment) : (cursor.next m).2.Allows c := by
        have hless : ((c + 1 : ℕ) : ℕ∞) - 1 = c := by norm_cast
        rw [← hless]
        exact hcursor.next m
      have hlater (m : Moment) := ih (hnext m) (by omega) (attempt + 1) _ k hrest
      rw [Nat.add_assoc, attempts_add, stateAfter_add, resultOf_add]
      exact yields_retryLoop_again hnotify hfirst hsetback hsome hlater

/-- A retried program that perseveres does so for as many rounds as the policy allows. -/
theorem Perseveres.retry (hp : Perseveres script q b p) {policy : RetryPolicy}
    (hpolicy : policy.Allows c) (hhorizon : c < policy.horizon) :
    Perseveres script q (b * (c + 1)) (retry policy notify p) := by
  intro s k h
  exact .moment fun m => hp.retryLoop hnotify (hpolicy m.wall) hhorizon 1 s k h

end Layer

/-! ### A stack of layers -/

/-- How many attempts layers allow in all, each given with the number of retries it allows. -/
def attemptsAllowed (layers : List (RetryPolicy × Nat)) : Nat := (layers.map fun l => l.2 + 1).prod

/-- A call, as a question, with retry layers around it. The outermost comes first. -/
def Ops.callUnder (name : String) (layers : List (RetryPolicy × Nat)) (q : Call P P × K) :
    Program (Ops.Calls K P P) (Except Error q.1.Reply) :=
  (layers.map fun l => Decorator.retry l.1).foldr (fun d p => d.around name q.1.operation p)
    (request (I := Ops.Calls K P P) q)

variable {layers : List (RetryPolicy × Nat)}

theorem attemptsAllowed_pos (layers : List (RetryPolicy × Nat)) : 0 < attemptsAllowed layers := by
  induction layers with
  | nil => exact Nat.one_pos
  | cons l layers ih =>
    rw [attemptsAllowed, List.map_cons, List.prod_cons]
    exact Nat.mul_pos l.2.succ_pos ih

theorem perseveres_callUnder (hlayers : ∀ l ∈ layers, l.1.Allows l.2 ∧ l.2 < l.1.horizon)
    (script : Script (Call P P × K) (fun q => q.1.Reply) σ) (name : String) (q : Call P P × K) :
    Perseveres script q (attemptsAllowed layers) (Ops.callUnder name layers q) := by
  induction layers with
  | nil => exact perseveres_request script q
  | cons l layers ih =>
    obtain ⟨⟨hallows, hhorizon⟩, hrest⟩ := List.forall_mem_cons.1 hlayers
    rw [attemptsAllowed, List.map_cons, List.prod_cons, Nat.mul_comm]
    exact (ih hrest).retry (fun attempt e delay s => yields_log _ s) hallows hhorizon

/-- The calls of the resource that came about are the calls under the layers, answered by the
resource beneath. -/
theorem Ops.perform_foldr_retry (ops : Ops I K P P) (layers : List (RetryPolicy × Nat))
    (call : Call P P) (k : K) :
    ((layers.map fun l => Decorator.retry l.1).foldr Ops.decorate ops).perform call k =
      (Ops.callUnder ops.name layers (call, k)).interpret ops.respond := by
  rw [Ops.perform_foldr_decorate, Ops.callUnder, Decorator.interpret_foldr_around,
    interpret_request]
  rfl

/-- However retry layers are stacked on the calls of a CRUD resource, a call of what comes out is
the call under the layers, answered by the resource. Whatever script the attempts go by, the call
comes to an end and makes a number of attempts, the last of which decides its result, and all of
which before the last were setbacks. There are at most as many as the layers allow in all, that is
the product of the numbers of attempts that each of them allows; exactly as many if all are
setbacks, and else as many as it takes until one is none. -/
theorem Registry.Decorated.retries_multiply {reg : Registry I K P ι} {c : Crud I K P}
    {r : Resource I K P ι}
    (h : reg.Decorated ⟨.crud c, layers.map fun l => .retry l.1, []⟩ r)
    (hlayers : ∀ l ∈ layers, l.1.Allows l.2 ∧ l.2 < l.1.horizon) :
    ∃ d, r = .crud d ∧ ∀ (call : Call P P) (k : K),
      d.ops.perform call k =
          (Ops.callUnder c.ops.name layers (call, k)).interpret c.ops.respond ∧
        ∀ (σ : Type) (script : Script (Call P P × K) (fun q => q.1.Reply) σ) (s : σ),
          ∃ n < attemptsAllowed layers,
            Yields (I := Ops.Calls K P P) script (Ops.callUnder c.ops.name layers (call, k)) s
                (attempts script (call, k) (n + 1) s) (resultOf script (call, k) s n)
                (stateAfter script (call, k) (n + 1) s) ∧
              (∀ i < n, IsSetback (resultOf script (call, k) s i)) ∧
              ((∀ i < attemptsAllowed layers, IsSetback (resultOf script (call, k) s i)) →
                n + 1 = attemptsAllowed layers) ∧
              ∀ i < attemptsAllowed layers,
                (∀ j < i, IsSetback (resultOf script (call, k) s j)) →
                  ¬ IsSetback (resultOf script (call, k) s i) → n = i := by
  refine ⟨_, h.resource_eq.symm, fun call k => ⟨?_, fun σ script s => ?_⟩⟩
  · exact Ops.perform_foldr_retry c.ops layers call k
  · obtain ⟨n, hn⟩ := exists_lastAttempt script (call, k) s (attemptsAllowed_pos layers)
    have hyields := perseveres_callUnder hlayers script c.ops.name (call, k) s n hn
    exact ⟨n, hn.lt, hyields, hn.before, hn.eq_of_forall, fun i => hn.eq_of_first⟩

/-! ### A flag under two layers -/

/-- One retry around two. -/
def twoLayers : List (RetryPolicy × Nat) :=
  [(⟨.capped .zero 1 0, 2⟩, 1), (⟨.capped .zero 2 0, 3⟩, 2)]

/-- The flag can be set at the fifth attempt, and can never be looked at. -/
def stiff : Script (Call (Bool ⊕ Bool) (Bool ⊕ Bool) × Unit) (fun q => q.1.Reply) Nat
  | (.apply .., _), tries =>
    (if tries < 4 then .error (.resource "flag" "busy" true) else .ok (), tries + 1)
  | _, tries => (.error (.resource "flag" "busy" true), tries + 1)

/-- Two layers allow six attempts. Setting the flag takes five of them and succeeds, looking at it
takes all six and fails. -/
theorem Registry.retries_multiply_flag :
    Yields (I := Ops.Calls Unit (Bool ⊕ Bool) (Bool ⊕ Bool)) stiff
        (Ops.callUnder "flag" twoLayers (.apply .create (.inr true), ())) 0
        (attempts stiff (.apply .create (.inr true), ()) 5 0) (.ok ()) 5 ∧
      Yields (I := Ops.Calls Unit (Bool ⊕ Bool) (Bool ⊕ Bool)) stiff
        (Ops.callUnder "flag" twoLayers (.getCurrent, ())) 0
        (attempts stiff (.getCurrent, ()) 6 0) (.error (.resource "flag" "busy" true)) 6 := by
  have hinner := (Decorated.base (.crud flagCrud)).wrapOne
    (wrapOne_crud flagRegistry (.retry ⟨.capped .zero 2 0, 3⟩) _)
  have houter : flagRegistry.Decorated
      ⟨.crud flagCrud, twoLayers.map fun l => .retry l.1, []⟩ _ :=
    hinner.splice (splice_crud flagRegistry (.retry ⟨.capped .zero 1 0, 2⟩) _)
  have hlayers : ∀ l ∈ twoLayers, l.1.Allows l.2 ∧ l.2 < l.1.horizon := by
    rintro l (_ | ⟨_, _ | ⟨_, ⟨⟩⟩⟩)
    · exact ⟨RetryPolicy.allows_of_allowance (by simp [Backoff.allowance?]), by decide⟩
    · exact ⟨RetryPolicy.allows_of_allowance (by simp [Backoff.allowance?]), by decide⟩
  obtain ⟨_, -, hcalls⟩ := houter.retries_multiply hlayers
  constructor
  · obtain ⟨n, -, hyields, -, -, hfirst⟩ := (hcalls (.apply .create (.inr true)) ()).2 Nat stiff 0
    obtain rfl : n = 4 := hfirst 4 (by decide) (by decide) (by decide)
    exact hyields
  · obtain ⟨n, -, hyields, -, hall, -⟩ := (hcalls .getCurrent ()).2 Nat stiff 0
    obtain rfl : n = 5 := Nat.succ.inj (hall (by decide))
    exact hyields

end Reconciler
