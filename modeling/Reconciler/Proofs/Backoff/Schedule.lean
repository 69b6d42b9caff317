import Reconciler.Proofs.Backoff

/-!
# Policies that depend on nothing but how often they are drawn from

A policy is timeless if no delay is spread by chance and the only time limit in it is the empty one.
What its cursors draw is then a fixed sequence, the schedule of the policy: a number of delays that
can be told from the policy, and nothing after them. Resetting a cursor is as good as a new one,
whatever was done with it before, and of the many cursors that are handed out for one policy each
goes through the schedule at its own pace.

## Main definitions

* `Backoff.Timeless`, `Backoff.Unused` : the policies, and those that nobody has drawn from
* `Backoff.schedule`, `Backoff.budget` : the delays of a policy, and how many there are
* `Backoff.Use`, `Backoff.used` : draws and resets of one cursor
* `RetryPolicy.Deed`, `RetryPolicy.cursors` : many cursors over one policy
* `RetryPolicy.drawsSince` : how often one of them was drawn from since its last reset

## Main results

* `Backoff.reset_used` : a reset forgets everything that was done
* `Backoff.draws_reset` : draws from a reset cursor go through the schedule
* `Backoff.isSome_schedule` : the budget is spent exactly
* `Backoff.Bounded.used` : counters stay within their limits
* `RetryPolicy.stands_of_handed_out` : what a cursor draws depends on the deeds on it alone
* `Backoff.scheduled_of_timeless` : all of this together
-/

namespace Reconciler

namespace Exponential

/-- The nominal interval of a draw, counted from the start. -/
def interval (e : Exponential) : Nat → Duration
  | 0 => e.initial
  | n + 1 =>
    match e.grow? (e.interval n) with
    | some d => d.atMost e.maximum
    | none => e.maximum

/-- The policy depends on neither the clock nor chance: it does not spread its delays, and it lasts
for ever or not at all. -/
def Timeless (e : Exponential) : Prop :=
  (e.elapsed = none ∨ e.elapsed = some .zero) ∧ e.factor ≤ 0.0

/-- A policy that lasts not at all yields nothing. -/
theorem next_of_elapsed_zero {e : Exponential} (h : e.elapsed = some .zero) (m : Moment) :
    e.next m = (none, e) := by
  have hexpired : e.isExpired m.wall = true := by
    rw [isExpired, h]
    exact decide_eq_true (Nat.zero_le _)
  rw [next, if_pos hexpired]

end Exponential

namespace Backoff

variable {b : Backoff} {n : Nat}

/-- The policy depends on neither the clock nor chance. -/
def Timeless : Backoff → Prop
  | exponential e => e.Timeless
  | constant _ => True
  | zero => True
  | stop => True
  | capped inner _ _ => inner.Timeless
  | other .. => False

/-- The cursor stands at its start. -/
def Unused : Backoff → Prop
  | exponential e => e.current = e.initial
  | constant _ => True
  | zero => True
  | stop => True
  | capped inner _ attempts => attempts = 0 ∧ inner.Unused
  | other _ _ drawn => drawn = []

/-- The delay of a draw, counted from the start of the policy. -/
def schedule : Backoff → Nat → Option Duration
  | exponential e, n => if e.elapsed = none then some (e.interval n) else none
  | constant interval, _ => some interval
  | zero, _ => some .zero
  | stop, _ => none
  | capped inner limit _, n => if n < limit then inner.schedule n else none
  | other .., _ => none

/-- How many draws yield a delay, counted from the start of the policy. -/
noncomputable def budget : Backoff → ℕ∞
  | exponential e => if e.elapsed = none then ⊤ else 0
  | constant _ => ⊤
  | zero => ⊤
  | stop => 0
  | capped inner limit _ => min limit inner.budget
  | other .. => 0

/-- The schedule has as many delays as the budget says, and nothing after them. -/
theorem isSome_schedule (b : Backoff) (n : Nat) :
    (b.schedule n).isSome = true ↔ (n : ℕ∞) < b.budget := by
  induction b with
  | exponential e => by_cases h : e.elapsed = none <;> simp [schedule, budget, h]
  | constant interval => simp [schedule, budget]
  | zero => simp [schedule, budget]
  | stop => simp [schedule, budget]
  | capped inner limit attempts ih =>
    by_cases h : n < limit
    · rw [schedule, if_pos h, ih, budget, lt_min_iff, Nat.cast_lt, and_iff_right h]
    · simp [schedule, budget, h]
  | other yields started drawn => simp [schedule, budget]

/-! ### Draws and resets of one cursor -/

/-- One use of a cursor. -/
inductive Use where
  /-- Draw the next delay. -/
  | draw (m : Moment)
  /-- Go back to the start. -/
  | reset (wall : Duration)

/-- The cursor after one use. -/
def use (b : Backoff) : Use → Backoff
  | .draw m => (b.next m).2
  | .reset wall => b.reset wall

@[simp] theorem use_draw (b : Backoff) (m : Moment) : b.use (.draw m) = (b.next m).2 := rfl

@[simp] theorem use_reset (b : Backoff) (wall : Duration) : b.use (.reset wall) = b.reset wall :=
  rfl

/-- The cursor after a number of uses. -/
def used (b : Backoff) (us : List Use) : Backoff := us.foldl use b

/-- A draw moves only what a reset puts back. -/
theorem reset_next (b : Backoff) (m : Moment) (wall : Duration) :
    (b.next m).2.reset wall = b.reset wall := by
  induction b with
  | exponential e =>
    simp only [Backoff.next, Exponential.next]
    split <;> rfl
  | constant interval => rfl
  | zero => rfl
  | stop => rfl
  | capped inner limit attempts ih =>
    simp only [Backoff.next]
    split
    · rfl
    · simp only [reset, ih]
  | other yields started drawn => rfl

theorem reset_reset (b : Backoff) (wall wall' : Duration) :
    (b.reset wall).reset wall' = b.reset wall' := by
  induction b with
  | exponential e => rfl
  | constant interval => rfl
  | zero => rfl
  | stop => rfl
  | capped inner limit attempts ih => simp only [reset, ih]
  | other yields started drawn => rfl

/-- A reset forgets everything that was done with the cursor. -/
theorem reset_used (b : Backoff) (us : List Use) (wall : Duration) :
    (b.used us).reset wall = b.reset wall := by
  induction us generalizing b with
  | nil => rfl
  | cons u us ih =>
    rw [used, List.foldl_cons]
    refine (ih (b.use u)).trans ?_
    cases u with
    | draw m => exact b.reset_next m wall
    | reset wall' => exact b.reset_reset wall' wall

/-- A cursor that stands at its start is as good as a reset one. -/
theorem Unused.eq_reset (h : b.Unused) : ∃ wall, b.reset wall = b := by
  induction b with
  | exponential e =>
    obtain ⟨initial, maximum, elapsed, multiplier, factor, current, started⟩ := e
    obtain rfl : current = initial := h
    exact ⟨started, rfl⟩
  | constant interval => exact ⟨.zero, rfl⟩
  | zero => exact ⟨.zero, rfl⟩
  | stop => exact ⟨.zero, rfl⟩
  | capped inner limit attempts ih =>
    obtain ⟨rfl, hinner⟩ := h
    obtain ⟨wall, hwall⟩ := ih hinner
    exact ⟨wall, by rw [reset, hwall]⟩
  | other yields started drawn =>
    obtain rfl : drawn = [] := h
    exact ⟨started, rfl⟩

/-! ### What a reset cursor draws -/

/-- A cursor that no draw moves yields the same over and over. -/
theorem draws_of_next {o : Option Duration} (h : ∀ m, b.next m = (o, b)) (ms : List Moment) :
    b.draws ms = List.replicate ms.length o := by
  induction ms with
  | nil => rfl
  | cons m ms ih => rw [draws, h, ih, List.length_cons, List.replicate_succ]

/-- From its `n`-th nominal interval on, an exponential policy without a time limit goes through its
intervals. -/
theorem draws_exponential {e : Exponential} (helapsed : e.elapsed = none) (hfactor : e.factor ≤ 0.0)
    (ms : List Moment) (n : Nat) (hcurrent : e.current = e.interval n) :
    (exponential e).draws ms = (List.range' n ms.length).map fun i => some (e.interval i) := by
  induction ms generalizing e n with
  | nil => rfl
  | cons m ms ih =>
    have hnext : (exponential e).next m = (some (e.interval n), exponential e.advance) := by
      simp [Backoff.next, Exponential.next, Exponential.isExpired, Exponential.spread, helapsed,
        hfactor, hcurrent]
    have hadvance : ∀ i, e.advance.interval i = e.interval i := by
      intro i
      induction i with
      | zero => rfl
      | succ i ihi =>
        simp only [Exponential.interval, ihi]
        rfl
    have hcurrent' : e.advance.current = e.advance.interval (n + 1) := by
      rw [hadvance, Exponential.interval, ← hcurrent]
      rfl
    have hrest := @ih e.advance helapsed hfactor (n + 1) hcurrent'
    simp only [draws, hnext, hrest, hadvance, List.length_cons, List.range'_succ, List.map_cons]

/-- Within a bound the draws are those of the policy within, and there is nothing beyond it. -/
theorem draws_capped (b : Backoff) (limit attempts : Nat) (ms : List Moment) :
    (capped b limit attempts).draws ms =
      b.draws (ms.take (limit - attempts)) ++
        List.replicate (ms.length - (limit - attempts)) none := by
  induction ms generalizing b attempts with
  | nil => simp [draws]
  | cons m ms ih =>
    by_cases hlimit : limit ≤ attempts
    · have hnext : ∀ m, (capped b limit attempts).next m = (none, capped b limit attempts) := by
        simp [Backoff.next, hlimit]
      rw [draws_of_next hnext]
      simp [Nat.sub_eq_zero_of_le hlimit, draws]
    · have hnext : (capped b limit attempts).next m =
          ((b.next m).1, capped (b.next m).2 limit (attempts + 1)) := by
        simp [Backoff.next, hlimit]
      have hroom : limit - attempts = limit - (attempts + 1) + 1 := by omega
      rw [draws, hnext, ih, hroom, List.take_succ_cons, draws, List.cons_append, List.length_cons,
        Nat.add_sub_add_right]

theorem interval_reset (e : Exponential) (wall : Duration) (n : Nat) :
    (e.reset wall).interval n = e.interval n := by
  induction n with
  | zero => rfl
  | succ n ih =>
    simp only [Exponential.interval, ih]
    rfl

/-- A reset cursor goes through the schedule, at whatever moments it is drawn from. -/
theorem draws_reset (h : b.Timeless) (wall : Duration) (ms : List Moment) :
    (b.reset wall).draws ms = (List.range ms.length).map b.schedule := by
  induction b generalizing ms with
  | exponential e =>
    obtain ⟨helapsed | helapsed, hfactor⟩ := h
    · rw [reset, draws_exponential (e := e.reset wall) helapsed hfactor ms 0 rfl,
        List.range_eq_range']
      simp only [interval_reset, schedule, helapsed, if_true]
    · have hnext : ∀ m, (exponential (e.reset wall)).next m =
          (none, exponential (e.reset wall)) := by
        intro m
        simp only [Backoff.next, Exponential.next_of_elapsed_zero (e := e.reset wall) helapsed]
      rw [reset, draws_of_next hnext]
      simp [schedule, helapsed, List.map_const']
  | constant interval =>
    rw [reset, draws_of_next (o := some interval) fun _ => rfl]
    simp [schedule, List.map_const']
  | zero =>
    rw [reset, draws_of_next (o := some .zero) fun _ => rfl]
    simp [schedule, List.map_const']
  | stop =>
    rw [reset, draws_of_next (o := none) fun _ => rfl]
    simp [schedule, List.map_const']
  | capped inner limit attempts ih =>
    rw [reset, draws_capped, ih h]
    refine List.ext_getElem (by simp; omega) fun i hi hi' => ?_
    have hlen : i < ms.length := by simpa using hi'
    by_cases hlimit : i < limit
    · rw [List.getElem_append_left (by simpa using ⟨hlimit, hlen⟩)]
      simp [schedule, hlimit]
    · rw [List.getElem_append_right (by simp; omega)]
      simp [schedule, hlimit]
  | other yields started drawn => cases h

/-! ### Where a cursor stands -/

/-- The cursor stands where `n` draws from the start of the policy lead. -/
def Stands (b : Backoff) (n : Nat) (c : Backoff) : Prop :=
  ∃ wall ms, ms.length = n ∧ c = (b.reset wall).after ms

variable {c : Backoff}

theorem stands_reset (b : Backoff) (wall : Duration) : b.Stands 0 (b.reset wall) :=
  ⟨wall, [], rfl, rfl⟩

/-- It does not matter what else was done with the cursor that policies are compared by. -/
theorem Stands.of_used {us : List Use} (h : (b.used us).Stands n c) : b.Stands n c := by
  obtain ⟨wall, ms, hlength, hc⟩ := h
  exact ⟨wall, ms, hlength, by rw [hc, reset_used]⟩

theorem after_eq_used (b : Backoff) (ms : List Moment) : b.after ms = b.used (ms.map .draw) := by
  rw [after, used, List.foldl_map]
  rfl

theorem Stands.draw (h : b.Stands n c) (m : Moment) : b.Stands (n + 1) (c.next m).2 := by
  obtain ⟨wall, ms, rfl, rfl⟩ := h
  refine ⟨wall, ms ++ [m], by simp, ?_⟩
  simp [after]

theorem Stands.reset (h : b.Stands n c) (wall : Duration) : b.Stands 0 (c.reset wall) := by
  obtain ⟨wall', ms, -, rfl⟩ := h
  rw [after_eq_used, reset_used, reset_reset]
  exact b.stands_reset wall

/-- A cursor goes on through the schedule from where it stands. -/
theorem Stands.draws (h : b.Stands n c) (htimeless : b.Timeless) (ms : List Moment) :
    c.draws ms = (List.range' n ms.length).map b.schedule := by
  obtain ⟨wall, ms', rfl, rfl⟩ := h
  have hall := draws_reset htimeless wall (ms' ++ ms)
  rw [draws_append, draws_reset htimeless wall ms', List.length_append, List.range_add,
    List.map_append, List.append_cancel_left_eq] at hall
  rw [hall, ← List.range'_eq_map_range]

/-! ### Counters -/

/-- The counters of the bounds in a policy, with their limits. -/
def counters : Backoff → List (Nat × Nat)
  | exponential _ => []
  | constant _ => []
  | zero => []
  | stop => []
  | capped inner limit attempts => (attempts, limit) :: inner.counters
  | other .. => []

/-- No counter is beyond its limit. -/
def Bounded (b : Backoff) : Prop := ∀ x ∈ b.counters, x.1 ≤ x.2

theorem Unused.bounded (h : b.Unused) : b.Bounded := by
  induction b with
  | exponential e => simp [Bounded, counters]
  | constant interval => simp [Bounded, counters]
  | zero => simp [Bounded, counters]
  | stop => simp [Bounded, counters]
  | capped inner limit attempts ih =>
    obtain ⟨rfl, hinner⟩ := h
    exact List.forall_mem_cons.2 ⟨Nat.zero_le _, ih hinner⟩
  | other yields started drawn => simp [Bounded, counters]

/-- A draw counts no further than the limit, and moves no limit. -/
theorem Bounded.next (h : b.Bounded) (m : Moment) :
    (b.next m).2.Bounded ∧ (b.next m).2.counters.map Prod.snd = b.counters.map Prod.snd := by
  induction b with
  | exponential e => exact ⟨by simp [Bounded, Backoff.next, counters], rfl⟩
  | constant interval => exact ⟨h, rfl⟩
  | zero => exact ⟨h, rfl⟩
  | stop => exact ⟨h, rfl⟩
  | capped inner limit attempts ih =>
    obtain ⟨-, hinner⟩ := List.forall_mem_cons.1 h
    obtain ⟨hbounded, hlimits⟩ := ih hinner
    simp only [Backoff.next]
    split
    · exact ⟨h, rfl⟩
    · rename_i hlimit
      refine ⟨List.forall_mem_cons.2 ⟨Nat.lt_of_not_le hlimit, hbounded⟩, ?_⟩
      rw [counters, counters, List.map_cons, List.map_cons, hlimits]
  | other yields started drawn => exact ⟨by simp [Bounded, Backoff.next, counters], rfl⟩

theorem Bounded.reset (h : b.Bounded) (wall : Duration) :
    (b.reset wall).Bounded ∧ (b.reset wall).counters.map Prod.snd = b.counters.map Prod.snd := by
  induction b with
  | exponential e => exact ⟨h, rfl⟩
  | constant interval => exact ⟨h, rfl⟩
  | zero => exact ⟨h, rfl⟩
  | stop => exact ⟨h, rfl⟩
  | capped inner limit attempts ih =>
    obtain ⟨-, hinner⟩ := List.forall_mem_cons.1 h
    obtain ⟨hbounded, hlimits⟩ := ih hinner
    refine ⟨List.forall_mem_cons.2 ⟨Nat.zero_le _, hbounded⟩, ?_⟩
    simp only [Backoff.reset, counters, List.map_cons, hlimits]
  | other yields started drawn => exact ⟨by simp [Bounded, Backoff.reset, counters], rfl⟩

/-- Counters stay within the limits they started with. -/
theorem Bounded.used (h : b.Bounded) (us : List Use) :
    (b.used us).Bounded ∧ (b.used us).counters.map Prod.snd = b.counters.map Prod.snd := by
  induction us generalizing b with
  | nil => exact ⟨h, rfl⟩
  | cons u us ih =>
    have huse : (b.use u).Bounded ∧
        (b.use u).counters.map Prod.snd = b.counters.map Prod.snd := by
      cases u with
      | draw m => exact h.next m
      | reset wall => exact h.reset wall
    obtain ⟨hbounded, hlimits⟩ := ih huse.1
    exact ⟨hbounded, hlimits.trans huse.2⟩

/-- A counter fits wherever the limits fit. -/
theorem Bounded.attempts_lt (h : b.Bounded) {size : Nat} (hlimits : ∀ x ∈ b.counters, x.2 < size)
    (us : List Use) : ∀ x ∈ (b.used us).counters, x.1 < size := by
  intro x hx
  obtain ⟨hbounded, hsame⟩ := h.used us
  have hmem : x.2 ∈ b.counters.map Prod.snd := hsame ▸ List.mem_map_of_mem hx
  obtain ⟨y, hy, hlimit⟩ := List.mem_map.1 hmem
  exact (hbounded x hx).trans_lt (hlimit ▸ hlimits y hy)

end Backoff

namespace RetryPolicy

open Backoff (Use)

variable {p : RetryPolicy} {b c : Backoff} {n i : Nat}

/-! ### Many cursors over one policy -/

/-- What is done with the cursors of a policy. They are numbered in the order in which they are
handed out. -/
inductive Deed where
  /-- One more cursor is handed out. -/
  | handOut (wall : Duration)
  /-- One of the cursors is used. -/
  | use (i : Nat) (u : Use)

/-- The cursors after one deed. -/
def deed (p : RetryPolicy) (cs : List Backoff) : Deed → List Backoff
  | .handOut wall => cs ++ [p.cursor wall]
  | .use i u => cs.modify i (·.use u)

/-- The cursors that are out. -/
def cursors (p : RetryPolicy) (ds : List Deed) : List Backoff := ds.foldl p.deed []

/-- How often cursor `i` was drawn from since its last reset: what is done with the other cursors
does not count. -/
def drawsSince (i : Nat) (ds : List Deed) : Nat := ds.foldl count 0
where
  /-- Count one deed. -/
  count (n : Nat) : Deed → Nat
    | .handOut _ => n
    | .use j (.draw _) => if j = i then n + 1 else n
    | .use j (.reset _) => if j = i then 0 else n

/-- One deed moves a cursor if it is a deed on this cursor, and else leaves it where it stands. -/
theorem stands_deed {cs : List Backoff} (hc : cs[i]? = some c) (hstands : b.Stands n c)
    (d : Deed) : ∃ c', (p.deed cs d)[i]? = some c' ∧ b.Stands (drawsSince.count i n d) c' := by
  cases d with
  | handOut wall =>
    have hlt : i < cs.length := (List.getElem?_eq_some_iff.1 hc).1
    exact ⟨c, by rw [deed, List.getElem?_append_left hlt, hc], hstands⟩
  | use j u =>
    by_cases hj : j = i
    · subst hj
      refine ⟨c.use u, by simp [deed, hc], ?_⟩
      cases u with
      | draw m => simpa [drawsSince.count] using hstands.draw m
      | reset wall => simpa [drawsSince.count] using hstands.reset wall
    · refine ⟨c, by simp [deed, hc, hj], ?_⟩
      cases u with
      | draw m => simpa [drawsSince.count, hj] using hstands
      | reset wall => simpa [drawsSince.count, hj] using hstands

/-- Where a cursor stands depends on the deeds on it alone. -/
theorem stands_deeds {cs : List Backoff} (hc : cs[i]? = some c) (hstands : b.Stands n c)
    (ds : List Deed) :
    ∃ c', (ds.foldl p.deed cs)[i]? = some c' ∧
      b.Stands (ds.foldl (drawsSince.count i) n) c' := by
  induction ds generalizing cs c n with
  | nil => exact ⟨c, hc, hstands⟩
  | cons d ds ih =>
    obtain ⟨c', hc', hstands'⟩ := stands_deed (p := p) hc hstands d
    exact ih hc' hstands'

/-- The same, from the moment the cursor is handed out. -/
theorem stands_of_handed_out (p : RetryPolicy) (before : List Deed) (wall : Duration)
    (later : List Deed) :
    ∃ c, (p.cursors (before ++ .handOut wall :: later))[(p.cursors before).length]? = some c ∧
      p.prototype.Stands (drawsSince (p.cursors before).length later) c := by
  have hnew : (p.deed (p.cursors before) (.handOut wall))[(p.cursors before).length]? =
      some (p.cursor wall) := by simp [deed]
  rw [cursors, List.foldl_append, List.foldl_cons]
  exact stands_deeds hnew (p.prototype.stands_reset wall) later

end RetryPolicy

namespace Backoff

variable {b : Backoff}

open RetryPolicy (drawsSince)

/-! ### The policy as a sequence -/

/-- Every cursor over the policy goes through its schedule, and nothing else matters. -/
structure Scheduled (b : Backoff) : Prop where
  /-- The schedule is a number of delays with nothing after them. -/
  spent : ∀ n, (b.schedule n).isSome = true ↔ (n : ℕ∞) < b.budget
  /-- A cursor that was never used goes through the schedule. -/
  fresh : ∀ ms, b.draws ms = (List.range ms.length).map b.schedule
  /-- So does every cursor after a reset, whatever was done with it before. -/
  rewound : ∀ us wall ms,
    ((b.used us).reset wall).draws ms = (List.range ms.length).map b.schedule
  /-- Cursors that are handed out for a policy go through the schedule as well, however far the
  prototype was moved. Each goes on from where its own draws since its last reset have led it,
  whatever is done with the others. -/
  handedOut : ∀ p : RetryPolicy, ∀ us, p.prototype = b.used us → ∀ before wall later,
    ∃ c, (p.cursors (before ++ .handOut wall :: later))[(p.cursors before).length]? = some c ∧
      ∀ ms, c.draws ms =
        (List.range' (drawsSince (p.cursors before).length later) ms.length).map b.schedule
  /-- No counter is ever beyond its limit. -/
  counted : ∀ us, (b.used us).Bounded
  /-- If the limits fit into 32 bits, then every counter does at any time. -/
  fits : (∀ x ∈ b.counters, x.2 < UInt32.size) →
    ∀ us, ∀ x ∈ (b.used us).counters, x.1 < UInt32.size

/-- A timeless policy is its schedule. -/
theorem scheduled_of_timeless (htimeless : b.Timeless) (hunused : b.Unused) : b.Scheduled where
  spent := b.isSome_schedule
  fresh ms := by
    obtain ⟨wall, hwall⟩ := hunused.eq_reset
    rw [← draws_reset htimeless wall, hwall]
  rewound us wall ms := by rw [reset_used, draws_reset htimeless]
  handedOut p us hprototype before wall later := by
    obtain ⟨c, hc, hstands⟩ := p.stands_of_handed_out before wall later
    rw [hprototype] at hstands
    exact ⟨c, hc, hstands.of_used.draws htimeless⟩
  counted us := (hunused.bounded.used us).1
  fits hlimits us := hunused.bounded.attempts_lt hlimits us

/-- Two bounds around growing intervals, of which the inner one is never reached. -/
def doublyCapped : Backoff :=
  capped (capped (exponential
    { initial := .ofMillis 500, maximum := .ofSecs 10, elapsed := none, factor := 0.0 }) 3 0) 2 0

theorem scheduled_doublyCapped :
    doublyCapped.Timeless ∧ doublyCapped.Unused ∧ doublyCapped.Scheduled :=
  have htimeless : doublyCapped.Timeless := ⟨Or.inl rfl, by decide⟩
  have hunused : doublyCapped.Unused := ⟨rfl, rfl, rfl⟩
  ⟨htimeless, hunused, scheduled_of_timeless htimeless hunused⟩

end Backoff

end Reconciler
