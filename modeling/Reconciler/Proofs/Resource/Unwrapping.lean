import Mathlib.Dynamics.FixedPoints.Basic
import Reconciler.Proofs.Resource.Protocol

/-!
# How far a resource is unwrapped

What a resource wraps is one resource or none, so that from every resource there is one way down,
which ends somewhere, or goes on for ever because it leads into a ring. Unwrapping follows it over
at most 100 steps. It finds the end if that is no further away, and otherwise it gives up, whether
there is an end further down or none at all.

Nothing here is about resources in particular: `unwrap?` follows any partial function. The number of
steps is that of an iterated function, so that the laws of iteration apply.

## Main definitions

* `after?` : where so many steps lead
* `EndsAt` : the way down ends after so many steps
* `Registry.ofGraph` : basic resources that wrap one another as a graph says

## Main results

* `unwrap?_eq_some_iff` : what is found within a depth
* `EndsAt.unique`, `not_endsAt_of_ring` : there is one end, and none beyond a ring
* `Registry.underlying_exact` : what unwrapping yields
-/

namespace Reconciler

variable {I : Interface} {K P ι α : Type}

/-! ### The way down -/

/-- Where so many steps lead, if there are as many. -/
def after? (next : α → Option α) (k : Nat) (a : α) : Option α := (·.bind next)^[k] (some a)

/-- After so many steps from `a` comes `b`, and nothing after it. -/
structure EndsAt (next : α → Option α) (a : α) (k : Nat) (b : α) : Prop where
  reached : after? next k a = some b
  last : next b = none

section Walk

variable {next : α → Option α} {a b c : α} {i k : Nat}

@[simp] theorem after?_zero (next : α → Option α) (a : α) : after? next 0 a = some a := rfl

theorem after?_succ (next : α → Option α) (k : Nat) (a : α) :
    after? next (k + 1) a = (next a).bind (after? next k) := by
  rw [after?, Function.iterate_succ_apply]
  change (·.bind next)^[k] (next a) = _
  cases next a with
  | none => exact Function.iterate_fixed rfl k
  | some b => rfl

theorem after?_add (next : α → Option α) (i k : Nat) (a : α) :
    after? next (i + k) a = (after? next i a).bind (after? next k) := by
  induction i generalizing a with
  | zero => rw [Nat.zero_add, after?_zero, Option.bind_some]
  | succ i ih =>
    rw [Nat.succ_add, after?_succ, after?_succ, Option.bind_assoc]
    exact congrArg _ (funext ih)

theorem endsAt_zero_iff : EndsAt next a 0 b ↔ a = b ∧ next a = none := by
  constructor
  · rintro ⟨hreached, hlast⟩
    obtain rfl : a = b := Option.some.inj hreached
    exact ⟨rfl, hlast⟩
  · rintro ⟨rfl, hlast⟩
    exact ⟨rfl, hlast⟩

theorem endsAt_succ_iff :
    EndsAt next a (k + 1) b ↔ ∃ c, next a = some c ∧ EndsAt next c k b := by
  constructor
  · rintro ⟨hreached, hlast⟩
    rw [after?_succ] at hreached
    obtain ⟨c, hc, hreached⟩ := Option.bind_eq_some_iff.1 hreached
    exact ⟨c, hc, hreached, hlast⟩
  · rintro ⟨c, hc, hreached, hlast⟩
    refine ⟨?_, hlast⟩
    rw [after?_succ, hc]
    exact hreached

/-- Beyond the end there is nothing. -/
theorem EndsAt.after?_eq_none (h : EndsAt next a k b) (hi : k < i) : after? next i a = none := by
  obtain ⟨m, rfl⟩ := Nat.exists_eq_add_of_lt hi
  rw [Nat.add_assoc, after?_add, h.reached, Option.bind_some, after?_succ, h.last]
  rfl

/-- There is only one end, and one way to it. -/
theorem EndsAt.unique (h : EndsAt next a k b) (h' : EndsAt next a i c) : k = i ∧ b = c := by
  have hnot {k i : Nat} {b c : α} (h : EndsAt next a k b) (h' : EndsAt next a i c) : ¬ k < i := by
    intro hlt
    have hnone := h.after?_eq_none hlt
    rw [h'.reached] at hnone
    cases hnone
  have hle := hnot h h'
  have hge := hnot h' h
  obtain rfl : k = i := by omega
  exact ⟨rfl, Option.some.inj (h.reached.symm.trans h'.reached)⟩

/-- In a ring one comes back again and again. -/
theorem after?_mul_of_ring (hring : after? next k c = some c) (n : Nat) :
    after? next (n * k) c = some c := by
  induction n with
  | zero => rw [Nat.zero_mul, after?_zero]
  | succ n ih => rw [Nat.succ_mul, after?_add, ih, Option.bind_some, hring]

/-- A way that leads into a ring has no end. -/
theorem not_endsAt_of_ring (hreached : after? next i a = some c) (hk : 0 < k)
    (hring : after? next k c = some c) (n : Nat) (b : α) : ¬ EndsAt next a n b := by
  intro h
  -- After enough rounds one is still on the way, further than the end is away.
  have hrounds : after? next (i + (n + 1) * k) a = some c := by
    rw [after?_add, hreached, Option.bind_some, after?_mul_of_ring hring]
  have hfar : n < i + (n + 1) * k := by
    have hle : (n + 1) * 1 ≤ (n + 1) * k := Nat.mul_le_mul_left _ hk
    omega
  rw [h.after?_eq_none hfar] at hrounds
  cases hrounds

/-- Within a depth the end is found if it is no further away. -/
theorem unwrap?_eq_some_iff {depth : Nat} :
    unwrap? next depth a = some b ↔ ∃ k ≤ depth, EndsAt next a k b := by
  induction depth generalizing a with
  | zero =>
    simp only [Nat.le_zero, exists_eq_left, endsAt_zero_iff, unwrap?]
    cases next a with
    | none => simp
    | some c => simp
  | succ depth ih =>
    rw [unwrap?]
    cases hnext : next a with
    | none =>
      constructor
      · intro h
        obtain rfl : a = b := Option.some.inj h
        exact ⟨0, Nat.zero_le _, endsAt_zero_iff.2 ⟨rfl, hnext⟩⟩
      · rintro ⟨k, -, h⟩
        have hhere : EndsAt next a 0 a := endsAt_zero_iff.2 ⟨rfl, hnext⟩
        exact congrArg some (hhere.unique h).2
    | some c =>
      change unwrap? next depth c = some b ↔ _
      rw [ih]
      constructor
      · rintro ⟨k, hk, h⟩
        exact ⟨k + 1, Nat.succ_le_succ hk, endsAt_succ_iff.2 ⟨c, hnext, h⟩⟩
      · rintro ⟨_ | k, hk, h⟩
        · rw [(endsAt_zero_iff.1 h).2] at hnext
          cases hnext
        · obtain ⟨c', hc', h⟩ := endsAt_succ_iff.1 h
          obtain rfl : c = c' := Option.some.inj (hnext.symm.trans hc')
          exact ⟨k, Nat.le_of_succ_le_succ hk, h⟩

theorem unwrap?_eq_none_iff {depth : Nat} :
    unwrap? next depth a = none ↔ ∀ k ≤ depth, ∀ b, ¬ EndsAt next a k b := by
  rw [Option.eq_none_iff_forall_ne_some]
  simp only [ne_eq, unwrap?_eq_some_iff, not_exists, not_and]
  exact forall_comm.trans (forall_congr' fun k => forall_comm)

end Walk

/-! ### Unwrapping -/

namespace Registry

variable {reg : Registry I K P ι} {r inner : Resource I K P ι} {k : Nat}

theorem underlying_eq_elim (reg : Registry I K P ι) (r : Resource I K P ι) :
    reg.underlying r =
      (unwrap? reg.wrapped? 100 r).elim (.error (.loopDetected 100)) Except.ok := by
  rw [underlying, maxUnwrapDepth]
  cases unwrap? reg.wrapped? 100 r with
  | none => rfl
  | some inner => rfl

theorem underlying_eq_ok_iff :
    reg.underlying r = .ok inner ↔ ∃ k ≤ 100, EndsAt reg.wrapped? r k inner := by
  rw [underlying_eq_elim, ← unwrap?_eq_some_iff]
  cases unwrap? reg.wrapped? 100 r with
  | none => simp
  | some inner' => simp

theorem underlying_eq_error_iff {e : Error} :
    reg.underlying r = .error e ↔
      e = .loopDetected 100 ∧ ∀ k ≤ 100, ∀ inner, ¬ EndsAt reg.wrapped? r k inner := by
  rw [underlying_eq_elim, ← unwrap?_eq_none_iff]
  cases unwrap? reg.wrapped? 100 r with
  | none => simp [eq_comm]
  | some inner => simp

/-- A resource that ends at a known distance. -/
theorem underlying_of_endsAt (h : EndsAt reg.wrapped? r k inner) :
    reg.underlying r = if k ≤ 100 then .ok inner else .error (.loopDetected 100) := by
  split
  next hk => exact underlying_eq_ok_iff.2 ⟨k, hk, h⟩
  next hk =>
    refine underlying_eq_error_iff.2 ⟨rfl, fun i hi b hb => hk ?_⟩
    rw [(h.unique hb).1]
    exact hi

/-- Unwrapping yields the resource that wraps nothing and comes after at most 100 steps, if there is
one, and otherwise it fails after 100 steps. So 100 wrappers are looked through and 101 are not, and
no way that leads into a ring is followed to the end of time. -/
theorem underlying_exact (reg : Registry I K P ι) (r : Resource I K P ι) :
    (∀ inner, reg.underlying r = .ok inner ↔ ∃ k ≤ 100, EndsAt reg.wrapped? r k inner) ∧
      ((¬ ∃ k ≤ 100, ∃ inner, EndsAt reg.wrapped? r k inner) ↔
        reg.underlying r = .error (.loopDetected 100)) ∧
      (∀ inner, EndsAt reg.wrapped? r 100 inner → reg.underlying r = .ok inner) ∧
      (∀ inner, EndsAt reg.wrapped? r 101 inner →
        reg.underlying r = .error (.loopDetected 100)) ∧
      ∀ i c p, after? reg.wrapped? i r = some c → 0 < p → after? reg.wrapped? p c = some c →
        reg.underlying r = .error (.loopDetected 100) := by
  refine ⟨fun inner => underlying_eq_ok_iff, ?_, fun inner h => ?_, fun inner h => ?_, ?_⟩
  · rw [underlying_eq_error_iff]
    simp
  · exact underlying_of_endsAt h
  · exact underlying_of_endsAt h
  · intro i c p hreached hp hring
    refine underlying_eq_error_iff.2 ⟨rfl, fun k _ inner => ?_⟩
    exact not_endsAt_of_ring hreached hp hring k inner

/-! ### Chains and rings -/

/-- Basic resources that wrap one another as a graph says. -/
def ofGraph (I : Interface) (K P : Type) (next : ι → Option ι) : Registry I K P ι where
  lookup i :=
    { name := "link", ensure := fun _ _ => .done (.ok ()), wrapped := (next i).map .basic }

theorem after?_ofGraph (next : ι → Option ι) (k : Nat) (i : ι) :
    after? (ofGraph I K P next).wrapped? k (.basic i) = (after? next k i).map .basic := by
  induction k generalizing i with
  | zero => rfl
  | succ k ih =>
    rw [after?_succ, after?_succ]
    change ((next i).map Resource.basic).bind _ = _
    cases next i with
    | none => rfl
    | some j => exact ih j

/-- A chain: each number wraps the one before. -/
def chained : Nat → Option Nat
  | 0 => none
  | n + 1 => some n

/-- The same, except that the last wraps a resource further up, which makes a ring of three. -/
def ringed : Nat → Option Nat
  | 0 => some 2
  | n + 1 => some n

theorem endsAt_chained (n : Nat) :
    EndsAt (ofGraph I K P chained).wrapped? (.basic n) n (.basic 0) := by
  induction n with
  | zero => exact endsAt_zero_iff.2 ⟨rfl, rfl⟩
  | succ n ih => exact endsAt_succ_iff.2 ⟨.basic n, rfl, ih⟩

/-- A hundred links are looked through, one more is not; from seven links one gets into the ring of
three. -/
theorem underlying_exact_links :
    (ofGraph flagpole Unit Unit chained).underlying (.basic 100) = .ok (.basic 0) ∧
      (ofGraph flagpole Unit Unit chained).underlying (.basic 101) =
        .error (.loopDetected 100) ∧
      (ofGraph flagpole Unit Unit ringed).underlying (.basic 7) = .error (.loopDetected 100) := by
  obtain ⟨-, -, hfull, -, -⟩ := underlying_exact (ofGraph flagpole Unit Unit chained) (.basic 100)
  obtain ⟨-, -, -, hover, -⟩ := underlying_exact (ofGraph flagpole Unit Unit chained) (.basic 101)
  obtain ⟨-, -, -, -, hring⟩ := underlying_exact (ofGraph flagpole Unit Unit ringed) (.basic 7)
  have hinto : after? (ofGraph flagpole Unit Unit ringed).wrapped? 5 (.basic 7) =
      some (.basic 2) := by
    rw [after?_ofGraph]
    rfl
  have hround : after? (ofGraph flagpole Unit Unit ringed).wrapped? 3 (.basic 2) =
      some (.basic 2) := by
    rw [after?_ofGraph]
    rfl
  exact ⟨hfull _ (endsAt_chained 100), hover _ (endsAt_chained 101),
    hring 5 _ 3 hinto (by decide) hround⟩

end Registry

end Reconciler
