import Mathlib.Data.ENat.Lattice
import Reconciler.Backoff

/-!
# How often a policy allows to retry

A cursor allows a number of retries if exactly that many draws yield a delay, whatever the clock and
the chance say. The number may be infinite. A policy that runs out after some time allows no fixed
number; every other one does.

## Main definitions

* `Backoff.after`, `Backoff.draws` : the cursor after some draws, and what they yield
* `Backoff.Allows`, `RetryPolicy.Allows` : how many draws yield a delay
* `Backoff.drawsFrom` : what draws yield from a cursor of any type
* `Backoff.allowance?` : the number, by the kind of the policy
* `Backoff.cap` : the most that it can be, time limit or not

## Main results

* `Backoff.Allows.next` : what one draw leaves
* `Backoff.draws_ofCursor` : whatever can be drawn from is one of the policies
* `Backoff.Allows.capped` : a bound on the number of draws is a bound on the number of retries
* `RetryPolicy.allows_of_allowance` : policies without a time limit allow a fixed number
* `Backoff.length_le_cap` : no policy allows more than its cap
-/

namespace Reconciler

namespace Backoff

variable {c : ℕ∞} {b : Backoff}

/-- The cursor after draws at given moments. -/
def after (b : Backoff) (ms : List Moment) : Backoff := ms.foldl (fun b m => (b.next m).2) b

/-- What draws at given moments yield. -/
def draws (b : Backoff) : List Moment → List (Option Duration)
  | [] => []
  | m :: ms => (b.next m).1 :: (b.next m).2.draws ms

/-- Exactly `c` draws yield a delay, whatever the moments of the draws are. -/
def Allows (c : ℕ∞) (b : Backoff) : Prop :=
  ∀ ms m, ((b.after ms).next m).1.isSome = true ↔ (ms.length : ℕ∞) < c

theorem Allows.isSome (h : b.Allows c) (m : Moment) : (b.next m).1.isSome = true ↔ 0 < c := by
  simpa [after] using h [] m

/-- A draw leaves one retry less. -/
theorem Allows.next (h : b.Allows c) (m : Moment) : (b.next m).2.Allows (c - 1) := by
  intro ms m'
  have hdraws := h (m :: ms) m'
  rw [List.length_cons, Nat.cast_succ] at hdraws
  rw [lt_tsub_iff_right]
  exact hdraws

/-- A cursor that is not moved by draws. -/
theorem allows_of_next {c : ℕ∞} {b : Backoff} (hc : c - 1 = c)
    (h : ∀ m, ((b.next m).1.isSome = true ↔ 0 < c) ∧ (b.next m).2 = b) : b.Allows c := by
  intro ms m
  induction ms with
  | nil => simpa [after] using (h m).1
  | cons m' ms ih =>
    have hafter : b.after (m' :: ms) = b.after ms := by
      rw [after, List.foldl_cons, (h m').2, after]
    rw [hafter, ih, List.length_cons, Nat.cast_succ, ← lt_tsub_iff_right, hc]

theorem allows_stop : stop.Allows 0 := allows_of_next rfl fun _ => ⟨by simp [Backoff.next], rfl⟩

theorem allows_zero : zero.Allows ⊤ := allows_of_next rfl fun _ => ⟨by simp [Backoff.next], rfl⟩

theorem allows_constant (interval : Duration) : (constant interval).Allows ⊤ :=
  allows_of_next rfl fun _ => ⟨by simp [Backoff.next], rfl⟩

/-- Growing intervals never end, unless the policy lasts only so long. -/
theorem allows_exponential {e : Exponential} (h : e.elapsed = none) :
    (exponential e).Allows ⊤ := by
  intro ms m
  refine iff_of_true ?_ (ENat.natCast_lt_top _)
  induction ms generalizing e with
  | nil => simp [after, Backoff.next, Exponential.next, Exponential.isExpired, h]
  | cons m' ms ih =>
    have hnext : ((exponential e).next m').2 = exponential e.advance := by
      simp [Backoff.next, Exponential.next, Exponential.isExpired, h]
    rw [after, List.foldl_cons, hnext]
    exact ih h

/-- A bound on the number of draws. -/
theorem Allows.capped (h : b.Allows c) (limit attempts : Nat) :
    (capped b limit attempts).Allows (min c (limit - attempts : ℕ)) := by
  intro ms m
  induction ms generalizing b c attempts with
  | nil =>
    by_cases hlimit : limit ≤ attempts
    · simp [after, Backoff.next, hlimit]
    · simp [after, Backoff.next, hlimit, h.isSome m, Nat.lt_of_not_le hlimit]
  | cons m' ms ih =>
    rw [after, List.foldl_cons]
    by_cases hlimit : limit ≤ attempts
    · have hnext : ((Backoff.capped b limit attempts).next m').2 = .capped b limit attempts := by
        simp [Backoff.next, hlimit]
      rw [hnext]
      refine (ih h attempts).trans (iff_of_false ?_ ?_)
      · simp [Nat.sub_eq_zero_of_le hlimit]
      · simp [Nat.sub_eq_zero_of_le hlimit]
    · have hnext : ((Backoff.capped b limit attempts).next m').2 =
          .capped (b.next m').2 limit (attempts + 1) := by
        simp [Backoff.next, hlimit]
      have hroom : limit - attempts = limit - (attempts + 1) + 1 := by omega
      rw [hnext]
      refine (ih (h.next m') (attempts + 1)).trans ?_
      rw [lt_min_iff, lt_min_iff, lt_tsub_iff_right, List.length_cons, hroom]
      push_cast
      exact and_congr_right' (ENat.add_lt_add_iff_right ENat.one_ne_top).symm

/-! ### Draws that all yield a delay -/

@[simp] theorem length_draws (b : Backoff) (ms : List Moment) :
    (b.draws ms).length = ms.length := by
  induction ms generalizing b with
  | nil => rfl
  | cons m ms ih => rw [draws, List.length_cons, ih, List.length_cons]

theorem draws_append (b : Backoff) (ms ms' : List Moment) :
    b.draws (ms ++ ms') = b.draws ms ++ (b.after ms).draws ms' := by
  induction ms generalizing b with
  | nil => rfl
  | cons m ms ih => rw [List.cons_append, draws, ih, draws, List.cons_append, after, after,
      List.foldl_cons]

/-! ### Cursors of any type -/

section

variable {σ : Type} {fresh : Duration → σ} {draw : Moment → σ → Option Duration × σ}

/-- What draws at given moments yield from a cursor of any type. -/
def drawsFrom (draw : Moment → σ → Option Duration × σ) (s : σ) :
    List Moment → List (Option Duration)
  | [] => []
  | m :: ms => (draw m s).1 :: drawsFrom draw (draw m s).2 ms

/-- Whatever can be put at a start and drawn from is one of the policies: their cursors yield what
it yields. -/
theorem draws_ofCursor (fresh : Duration → σ) (draw : Moment → σ → Option Duration × σ)
    (wall : Duration) (ms : List Moment) :
    ((ofCursor fresh draw).reset wall).draws ms = drawsFrom draw (fresh wall) ms := by
  -- The draws that were made have led the cursor away from its start.
  suffices h : ∀ drawn : List Moment, (other (yieldsOf fresh draw) wall drawn).draws ms =
      drawsFrom draw (drawn.foldr (fun m s => (draw m s).2) (fresh wall)) ms from h []
  intro drawn
  induction ms generalizing drawn with
  | nil => rfl
  | cons m ms ih => exact congrArg (List.cons _) (ih (m :: drawn))

end

/-- There are no more of them than are allowed. -/
theorem Allows.length_le (h : b.Allows c) {ms : List Moment}
    (hms : ∀ o ∈ b.draws ms, o.isSome = true) : (ms.length : ℕ∞) ≤ c := by
  induction ms generalizing b c with
  | nil => exact zero_le
  | cons m ms ih =>
    obtain ⟨hfirst, hrest⟩ := List.forall_mem_cons.1 hms
    have hle := ih (h.next m) hrest
    have hpos : 1 ≤ c := Order.one_le_iff_pos.2 ((h.isSome m).1 hfirst)
    rw [List.length_cons, Nat.cast_succ]
    exact (add_le_add_left hle 1).trans (tsub_add_cancel_of_le hpos).le

/-- A bound on the number of draws bounds them, and whatever is drawn is drawn from the policy
within. -/
theorem of_draws_capped {limit attempts : Nat} {ms : List Moment}
    (hms : ∀ o ∈ (capped b limit attempts).draws ms, o.isSome = true) :
    (∀ o ∈ b.draws ms, o.isSome = true) ∧ ms.length ≤ limit - attempts := by
  induction ms generalizing b attempts with
  | nil => exact ⟨by simp [draws], Nat.zero_le _⟩
  | cons m ms ih =>
    obtain ⟨hfirst, hrest⟩ := List.forall_mem_cons.1 hms
    by_cases hlimit : limit ≤ attempts
    · simp [Backoff.next, hlimit] at hfirst
    · simp only [Backoff.next, hlimit, if_false] at hfirst hrest
      obtain ⟨hinner, hlength⟩ := ih hrest
      refine ⟨List.forall_mem_cons.2 ⟨hfirst, hinner⟩, ?_⟩
      rw [List.length_cons]
      omega

/-- How many retries the policy allows at most, from its start and whatever the clock shows. -/
noncomputable def cap : Backoff → ℕ∞
  | exponential _ => ⊤
  | constant _ => ⊤
  | zero => ⊤
  | stop => 0
  | capped inner limit _ => min inner.cap limit
  | other yields _ _ =>
    ⨆ (wall : Duration) (ms : List Moment)
      (_ : ∀ o ∈ (other yields wall []).draws ms, o.isSome = true), (ms.length : ℕ∞)

theorem length_le_cap {wall : Duration} {ms : List Moment}
    (hms : ∀ o ∈ (b.reset wall).draws ms, o.isSome = true) : (ms.length : ℕ∞) ≤ b.cap := by
  induction b generalizing ms with
  | exponential e => exact le_top
  | constant interval => exact le_top
  | zero => exact le_top
  | stop => exact allows_stop.length_le hms
  | capped inner limit attempts ih =>
    obtain ⟨hinner, hlength⟩ := of_draws_capped hms
    exact le_min (ih hinner) (Nat.cast_le.2 hlength)
  | other yields started drawn =>
    exact le_iSup_of_le wall (le_iSup_of_le ms (le_iSup_of_le hms le_rfl))

/-! ### Policies without a time limit -/

/-- How many retries the policy allows from its start, unless it runs out after some time. -/
noncomputable def allowance? : Backoff → Option ℕ∞
  | exponential e => if e.elapsed = none then some ⊤ else none
  | constant _ => some ⊤
  | zero => some ⊤
  | stop => some 0
  | capped inner limit _ => inner.allowance?.map fun c => min c limit
  | other .. => none

theorem allows_reset (h : b.allowance? = some c) (wall : Duration) : (b.reset wall).Allows c := by
  induction b generalizing c with
  | exponential e =>
    rw [allowance?] at h
    split at h
    · cases h
      exact allows_exponential ‹_›
    · cases h
  | constant interval => cases h; exact allows_constant interval
  | zero => cases h; exact allows_zero
  | stop => cases h; exact allows_stop
  | capped inner limit attempts ih =>
    obtain ⟨c', hc', rfl⟩ := Option.map_eq_some_iff.1 h
    exact (ih hc').capped limit 0
  | other yields started drawn => cases h

end Backoff

namespace RetryPolicy

/-- Every retried call may be repeated exactly `c` times. -/
def Allows (c : ℕ∞) (p : RetryPolicy) : Prop := ∀ wall, (p.cursor wall).Allows c

/-- A policy that does not run out by time allows a fixed number of retries. -/
theorem allows_of_allowance {p : RetryPolicy} {c : ℕ∞} (h : p.prototype.allowance? = some c) :
    p.Allows c := fun wall => Backoff.allows_reset h wall

end RetryPolicy

end Reconciler
