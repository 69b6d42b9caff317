import Reconciler.Proofs.Backoff.Schedule

/-!
# Where growing intervals are held

The nominal interval of an exponential policy is held at its maximum when it grows. It grows with
every delay that is handed out, and so no delay exceeds the maximum as soon as one has been handed
out since the cursor was made or reset. The first delay after that is the initial interval as it
stands, which nothing compares with the maximum. So the maximum bounds all delays exactly if it
bounds the first one, or if there are none.

The invariant speaks about a cursor together with what it has handed out since its start. One use
keeps it, and nothing is said about how fast intervals grow.

## Main definitions

* `Backoff.handedOut` : the delays since the cursor was made or last reset
* `Exponential.Climbs` : where a cursor over a policy can be after these

## Main results

* `Exponential.advance_current_le` : one draw
* `Exponential.Climbs.used` : any draws and resets
* `Exponential.delay_bounds` : any delay
* `Exponential.within_maximum_iff` : which delays the maximum bounds
-/

namespace Reconciler

namespace Backoff

/-! ### What was handed out since the start -/

/-- A cursor and what it has handed out since its start, after one more use. -/
def handOut : Backoff × List Duration → Use → Backoff × List Duration
  | (b, out), .draw m => ((b.next m).2, out ++ (b.next m).1.toList)
  | (b, _), .reset wall => (b.reset wall, [])

/-- What the cursor has handed out since it was made, or since its last reset if there was one. -/
def handedOut (b : Backoff) (us : List Use) : List Duration := (us.foldl handOut (b, [])).2

theorem fst_foldl_handOut (b : Backoff) (out : List Duration) (us : List Use) :
    (us.foldl handOut (b, out)).1 = b.used us := by
  induction us generalizing b out with
  | nil => rfl
  | cons u us ih =>
    cases u with
    | draw m => exact ih _ _
    | reset wall => exact ih _ _

end Backoff

namespace Exponential

open Backoff (Use handOut handedOut)

variable {e c : Exponential} {out : List Duration} {m : Moment} {d : Duration}

/-! ### One use -/

/-- Whatever the nominal interval grows to, it is held at the maximum. -/
theorem advance_current_le (e : Exponential) : e.advance.current ≤ e.maximum := by
  rw [advance]
  split
  · exact Duration.atMost_le _ _
  · exact Nat.le_refl _

/-- Without spread a draw yields the nominal interval. -/
theorem next_of_unspread (hfactor : e.factor ≤ 0.0) (m : Moment) :
    e.next m = if e.isExpired m.wall then (none, e) else (some e.current, e.advance) := by
  rw [next, spread, if_pos hfactor]

/-- The second policy is a cursor over the first that has handed out these delays since its start:
its nominal interval is the initial one before the first of them, and held at the maximum after
it. -/
structure Climbs (e c : Exponential) (out : List Duration) : Prop where
  initial : c.initial = e.initial
  maximum : c.maximum = e.maximum
  elapsed : c.elapsed = e.elapsed
  factor : c.factor = e.factor
  start : out = [] → c.current = e.initial
  held : out ≠ [] → c.current ≤ e.maximum

theorem climbs_self (h : e.current = e.initial) : e.Climbs e [] where
  initial := rfl
  maximum := rfl
  elapsed := rfl
  factor := rfl
  start _ := h
  held h := absurd rfl h

theorem Climbs.draw (h : e.Climbs c out) (m : Moment) :
    e.Climbs (c.next m).2 (out ++ (c.next m).1.toList) := by
  rw [next]
  split
  · rwa [Option.toList_none, List.append_nil]
  · exact ⟨h.initial, h.maximum, h.elapsed, h.factor, by simp,
      fun _ => h.maximum ▸ c.advance_current_le⟩

theorem Climbs.reset (h : e.Climbs c out) (wall : Duration) : e.Climbs (c.reset wall) [] :=
  ⟨h.initial, h.maximum, h.elapsed, h.factor, fun _ => h.initial, fun hout => absurd rfl hout⟩

/-! ### Any uses -/

/-- Wherever draws and resets lead a cursor, it is where it can be after what it has handed out. -/
theorem Climbs.foldl (h : e.Climbs c out) (us : List Use) :
    ∃ c', (us.foldl handOut (.exponential c, out)).1 = .exponential c' ∧
      e.Climbs c' (us.foldl handOut (.exponential c, out)).2 := by
  induction us generalizing c out with
  | nil => exact ⟨c, rfl, h⟩
  | cons u us ih =>
    cases u with
    | draw m => exact ih (h.draw m)
    | reset wall => exact ih (h.reset wall)

theorem Climbs.used (h : e.Climbs e []) (us : List Use) :
    ∃ c, (Backoff.exponential e).used us = .exponential c ∧
      e.Climbs c ((Backoff.exponential e).handedOut us) := by
  obtain ⟨c, hc, hclimbs⟩ := h.foldl us
  rw [Backoff.fst_foldl_handOut] at hc
  exact ⟨c, hc, hclimbs⟩

/-- If the policy lasts for any time then something can be drawn right after a reset. -/
theorem next_reset_zero (hfactor : e.factor ≤ 0.0) (helapsed : e.elapsed ≠ some .zero) :
    ((e.reset .zero).next ⟨.zero, 0⟩).1 = some e.initial := by
  have hlasts : (e.reset .zero).isExpired .zero = false := by
    rw [isExpired]
    split
    · rfl
    · next limit hlimit =>
      refine decide_eq_false fun hle => helapsed ?_
      have hzero : limit.nanos ≤ 0 := hle
      have hlimit : e.elapsed = some limit := hlimit
      rw [hlimit, show limit = .zero from congrArg Duration.mk (Nat.le_zero.1 hzero)]
  rw [next_of_unspread (e := e.reset .zero) hfactor, hlasts]
  rfl

/-- The first delay since the start is the initial interval, and those after it are held. -/
theorem delay_bounds (hunused : e.current = e.initial) (hfactor : e.factor ≤ 0.0) {us : List Use}
    (hd : (((Backoff.exponential e).used us).next m).1 = some d) :
    ((Backoff.exponential e).handedOut us = [] → d = e.initial) ∧
      ((Backoff.exponential e).handedOut us ≠ [] → d ≤ e.maximum) := by
  obtain ⟨c, hc, hclimbs⟩ := (climbs_self hunused).used us
  have hnext : (c.next m).1 = some d := by rwa [hc] at hd
  rw [next_of_unspread (hclimbs.factor ▸ hfactor)] at hnext
  split at hnext
  · cases hnext
  · cases hnext
    exact ⟨hclimbs.start, hclimbs.held⟩

/-- Nothing is ever drawn from a policy that does not last at all. -/
theorem not_drawn_of_elapsed_zero (hunused : e.current = e.initial)
    (helapsed : e.elapsed = some .zero) (us : List Use) :
    (((Backoff.exponential e).used us).next m).1 ≠ some d := by
  obtain ⟨c, hc, hclimbs⟩ := (climbs_self hunused).used us
  rw [hc, Backoff.next, next_of_elapsed_zero (hclimbs.elapsed.trans helapsed)]
  exact (Option.some_ne_none d).symm

/-- Draw from a fresh cursor that does not spread its delays and reset it, in any order. The first
delay since it was made or reset is the initial interval, and those after it are within the maximum.
So all delays are within the maximum exactly if the initial interval is, or if there are none as the
policy does not last at all. -/
theorem within_maximum_iff (hunused : e.current = e.initial) (hfactor : e.factor ≤ 0.0) :
    (∀ us m d, (((Backoff.exponential e).used us).next m).1 = some d →
        ((Backoff.exponential e).handedOut us = [] → d = e.initial) ∧
        ((Backoff.exponential e).handedOut us ≠ [] → d ≤ e.maximum)) ∧
      ((∀ us m d, (((Backoff.exponential e).used us).next m).1 = some d → d ≤ e.maximum) ↔
        e.initial ≤ e.maximum ∨ e.elapsed = some .zero) := by
  refine ⟨fun us m d hd => delay_bounds hunused hfactor hd, fun hall => ?_, ?_⟩
  · -- The first delay after a reset is the initial interval, so the bound covers that one too.
    by_cases helapsed : e.elapsed = some .zero
    · exact .inr helapsed
    · exact .inl (hall [.reset .zero] ⟨.zero, 0⟩ _ (next_reset_zero hfactor helapsed))
  · rintro (hinitial | helapsed) us m d hd
    · obtain ⟨hfirst, hlater⟩ := delay_bounds hunused hfactor hd
      by_cases hout : (Backoff.exponential e).handedOut us = []
      · rwa [hfirst hout]
      · exact hlater hout
    · exact absurd hd (not_drawn_of_elapsed_zero hunused helapsed us)

/-- Intervals that begin above their maximum. -/
def overshooting : Exponential where
  initial := .ofSecs 10
  maximum := .ofSecs 4
  elapsed := none
  factor := 0.0

theorem within_maximum_iff_overshooting :
    overshooting.current = overshooting.initial ∧ overshooting.factor ≤ 0.0 ∧
      ¬ ∀ us m d, (((Backoff.exponential overshooting).used us).next m).1 = some d →
        d ≤ overshooting.maximum := by
  have hfactor : overshooting.factor ≤ 0.0 := by decide
  obtain ⟨-, hiff⟩ := within_maximum_iff (e := overshooting) rfl hfactor
  refine ⟨rfl, hfactor, fun hall => ?_⟩
  rcases hiff.1 hall with hinitial | helapsed
  · exact absurd hinitial (by decide)
  · cases helapsed

/-- They are drawn as they are, at first and again after a reset. -/
theorem overshooting_draws :
    (((Backoff.exponential overshooting).used []).next default).1 = some (.ofSecs 10) ∧
      (((Backoff.exponential overshooting).used [.draw default, .reset .zero]).next default).1 =
        some (.ofSecs 10) ∧
      ¬ Duration.ofSecs 10 ≤ overshooting.maximum := by
  decide

end Exponential

end Reconciler
