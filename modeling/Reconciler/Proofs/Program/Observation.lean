import Reconciler.Proofs.Program.Trace

/-!
# Programs that are watched

A program is watched if log entries, measurements and looks at the clock are added to it anywhere,
and nothing else is changed. Whatever it talks to cannot tell: it is asked the same questions in the
same order, and sleeps as long in between. The converse holds as well, so a watched program talks in
exactly the ways in which the program talks.

Against one answering function the two come to the same value and leave the same behind, if nothing
is lost by looking at the clock and taking note of signals. What is left behind may contain more
than the answers depend on, the log for example; a view of it leaves that out.

## Main definitions

* `Program.Observed` : the second program is the first one, watched
* `Program.Converses` : what a program says and how it ends, without what only watches
* `Program.Surroundings.Unaffected` : nothing that only watches shows in a view
* `Program.Alike` : nobody can tell two programs apart

## Main results

* `Program.Observed.bind` : parts may be watched one by one
* `Program.Observed.converses_iff`, `Program.Observed.run` : watched programs talk and end alike
-/

namespace Reconciler

namespace Program

variable {I : Interface} {α β σ τ : Type}

/-- The second program is the first, with log entries, measurements and looks at the clock added. -/
inductive Observed : Program I α → Program I α → Prop where
  /-- The end. -/
  | done (a : α) : Observed (.done a) (.done a)
  /-- A horizon. -/
  | unfinished : Observed .unfinished .unfinished
  /-- Both log or measure. -/
  | signal (s : Signal) {p q : Program I α} (h : Observed p q) :
      Observed (.signal s p) (.signal s q)
  /-- Both sleep. -/
  | sleep (d : Duration) {p q : Program I α} (h : Observed p q) : Observed (.sleep d p) (.sleep d q)
  /-- Both look at the clock. -/
  | moment {p q : Moment → Program I α} (h : ∀ m, Observed (p m) (q m)) :
      Observed (.moment p) (.moment q)
  /-- Both ask. -/
  | ask (i : I.Request) {p q : I.Reply i → Program I α} (h : ∀ r, Observed (p r) (q r)) :
      Observed (.ask i p) (.ask i q)
  /-- One more log entry or measurement. -/
  | extraSignal (s : Signal) {p q : Program I α} (h : Observed p q) : Observed p (.signal s q)
  /-- One more look at the clock, for nothing. -/
  | extraMoment {p : Program I α} {q : Moment → Program I α} (h : ∀ m, Observed p (q m)) :
      Observed p (.moment q)

namespace Observed

theorem refl (p : Program I α) : Observed p p := by
  induction p with
  | done a => exact .done a
  | unfinished => exact .unfinished
  | signal s next ih => exact .signal s ih
  | sleep d next ih => exact .sleep d ih
  | moment next ih => exact .moment ih
  | ask i next ih => exact .ask i ih

theorem bind {p q : Program I α} (h : Observed p q) {f g : α → Program I β}
    (hf : ∀ a, Observed (f a) (g a)) : Observed (p.bind f) (q.bind g) := by
  induction h with
  | done a => exact hf a
  | unfinished => exact .unfinished
  | signal s _ ih => exact .signal s ih
  | sleep d _ ih => exact .sleep d ih
  | moment _ ih => exact .moment ih
  | ask i _ ih => exact .ask i ih
  | extraSignal s _ ih => exact .extraSignal s ih
  | extraMoment _ ih => exact .extraMoment ih

theorem andThen {p q : Program I (Except Error α)} (h : Observed p q)
    {f g : α → Program I (Except Error β)} (hf : ∀ a, Observed (f a) (g a)) :
    Observed (p.andThen f) (q.andThen g) := by
  refine h.bind fun r => ?_
  cases r with
  | ok a => exact hf a
  | error e => exact .done _

/-- Something that comes after a program, whatever its value was, and gives the value back. -/
theorem followed {p q : Program I α} (h : Observed p q) {f : α → Program I α}
    (hf : ∀ a, Observed (.done a) (f a)) : Observed p (q.bind f) := by
  rw [← bind_done p]
  exact h.bind hf

/-- Measurements before a program. -/
theorem measured {p : Program I α} {f : Unit → Program I α} (h : Observed p (f ()))
    (ms : List Measurement) : Observed p ((measure ms).bind f) := by
  induction ms with
  | nil => exact h
  | cons m ms ih => exact .extraSignal (.measure m) ih

end Observed

/-! ### What is said -/

/-- The act is a question or a sleep. -/
def Act.isTalk : Act I → Bool
  | .slept _ => true
  | .asked _ _ => true
  | .signalled _ => false
  | .looked _ => false

/-- The questions of a run with their answers, and its sleeps. -/
def talk (as : List (Act I)) : List (Act I) := as.filter Act.isTalk

/-- The program may say this and end so, or be looked at then. -/
def Converses (p : Program I α) (said : List (Act I)) (r : Option α) : Prop :=
  ∃ as, Runs p as r ∧ talk as = said

theorem converses_nil (p : Program I α) : Converses p [] none := ⟨[], .cut p, rfl⟩

/-- A program that begins with an act that is no talk. -/
theorem converses_quiet {p : Program I α} (hp : ∀ a, p ≠ .done a)
    (hquiet : ∀ a p', Step p a p' → a.isTalk = false) (said : List (Act I)) (r : Option α) :
    Converses p said r ↔
      said = [] ∧ r = none ∨ ∃ a p', Step p a p' ∧ Converses p' said r := by
  constructor
  · rintro ⟨as, hruns, rfl⟩
    cases hruns with
    | cut => exact .inl ⟨rfl, rfl⟩
    | done a => exact absurd rfl (hp a)
    | @step _ p' a as _ hstep hrest =>
      refine .inr ⟨a, p', hstep, as, hrest, ?_⟩
      rw [talk, talk, List.filter_cons_of_neg (by simp [hquiet a p' hstep])]
  · rintro (⟨rfl, rfl⟩ | ⟨a, p', hstep, as, hrest, rfl⟩)
    · exact converses_nil p
    · refine ⟨a :: as, .step hstep hrest, ?_⟩
      rw [talk, talk, List.filter_cons_of_neg (by simp [hquiet a p' hstep])]

/-- A program that begins with a question or a sleep. -/
theorem converses_loud {p : Program I α} (hp : ∀ a, p ≠ .done a)
    (hloud : ∀ a p', Step p a p' → a.isTalk = true) (said : List (Act I)) (r : Option α) :
    Converses p said r ↔ said = [] ∧ r = none ∨
      ∃ a p' said', said = a :: said' ∧ Step p a p' ∧ Converses p' said' r := by
  constructor
  · rintro ⟨as, hruns, rfl⟩
    cases hruns with
    | cut => exact .inl ⟨rfl, rfl⟩
    | done a => exact absurd rfl (hp a)
    | @step _ p' a as _ hstep hrest =>
      exact .inr ⟨a, p', talk as, List.filter_cons_of_pos (hloud a p' hstep), hstep, as, hrest,
        rfl⟩
  · rintro (⟨rfl, rfl⟩ | ⟨a, p', _, rfl, hstep, as, hrest, rfl⟩)
    · exact converses_nil p
    · exact ⟨a :: as, .step hstep hrest, List.filter_cons_of_pos (hloud a p' hstep)⟩

@[simp] theorem converses_signal (s : Signal) (p : Program I α) (said : List (Act I))
    (r : Option α) : Converses (.signal s p) said r ↔ Converses p said r := by
  rw [converses_quiet (by simp) (by rintro a p' ⟨⟩; rfl)]
  constructor
  · rintro (⟨rfl, rfl⟩ | ⟨a, p', ⟨⟩, h⟩)
    · exact converses_nil p
    · exact h
  · intro h
    exact .inr ⟨_, p, .signal s p, h⟩

@[simp] theorem converses_moment (p : Moment → Program I α) (said : List (Act I))
    (r : Option α) : Converses (.moment p) said r ↔ ∃ m, Converses (p m) said r := by
  rw [converses_quiet (by simp) (by rintro a p' ⟨⟩; rfl)]
  constructor
  · rintro (⟨rfl, rfl⟩ | ⟨a, p', hstep, h⟩)
    · exact ⟨default, converses_nil _⟩
    · cases hstep with | moment m => exact ⟨m, h⟩
  · rintro ⟨m, h⟩
    exact .inr ⟨_, p m, .moment m p, h⟩

theorem converses_sleep (d : Duration) (p : Program I α) (said : List (Act I)) (r : Option α) :
    Converses (.sleep d p) said r ↔ said = [] ∧ r = none ∨
      ∃ said', said = .slept d :: said' ∧ Converses p said' r := by
  rw [converses_loud (by simp) (by rintro a p' ⟨⟩; rfl)]
  refine or_congr_right ⟨?_, ?_⟩
  · rintro ⟨a, p', said', rfl, ⟨⟩, h⟩
    exact ⟨said', rfl, h⟩
  · rintro ⟨said', rfl, h⟩
    exact ⟨_, p, said', rfl, .sleep d p, h⟩

theorem converses_ask (i : I.Request) (p : I.Reply i → Program I α) (said : List (Act I))
    (r : Option α) : Converses (.ask i p) said r ↔ said = [] ∧ r = none ∨
      ∃ rep said', said = .asked i rep :: said' ∧ Converses (p rep) said' r := by
  rw [converses_loud (by simp) (by rintro a p' ⟨⟩; rfl)]
  refine or_congr_right ⟨?_, ?_⟩
  · rintro ⟨a, p', said', rfl, hstep, h⟩
    cases hstep with | ask rep => exact ⟨rep, said', rfl, h⟩
  · rintro ⟨rep, said', rfl, h⟩
    exact ⟨_, p rep, said', rfl, .ask rep p, h⟩

/-- A watched program says what the program says by itself. -/
theorem Observed.converses_iff {p q : Program I α} (h : Observed p q) (said : List (Act I))
    (r : Option α) : Converses q said r ↔ Converses p said r := by
  induction h generalizing said with
  | done a => rfl
  | unfinished => rfl
  | signal s _ ih => rw [converses_signal, converses_signal, ih]
  | sleep d _ ih => simp only [converses_sleep, ih]
  | moment _ ih => simp only [converses_moment, ih]
  | ask i _ ih => simp only [converses_ask, ih]
  | extraSignal s _ ih => rw [converses_signal, ih]
  | extraMoment _ ih => simp only [converses_moment, ih, exists_const]

/-! ### What is left behind -/

/-- Nothing that only watches shows in the view: signals and looks at the clock do not change what
is seen, and answers and readings depend on no more than that. -/
structure Surroundings.Unaffected (env : Surroundings I σ) (view : σ → τ) : Prop where
  answer : ∀ q s t, view s = view t → (env.answer q s).1 = (env.answer q t).1 ∧
    view (env.answer q s).2 = view (env.answer q t).2
  reading : ∀ s t, view s = view t → (env.moment s).1 = (env.moment t).1
  moment : ∀ s, view (env.moment s).2 = view s
  observe : ∀ e s, view (env.observe e s) = view s

/-- A watched program comes to the same value and leaves the same behind. -/
theorem Observed.run {p q : Program I α} (h : Observed p q) {env : Surroundings I σ} {view : σ → τ}
    (henv : env.Unaffected view) {s t : σ} (hst : view s = view t) :
    (q.run env s).1 = (p.run env t).1 ∧ view (q.run env s).2 = view (p.run env t).2 := by
  induction h generalizing s t with
  | done a => exact ⟨rfl, hst⟩
  | unfinished => exact ⟨rfl, hst⟩
  | signal e _ ih => exact ih (by rw [henv.observe, henv.observe, hst])
  | sleep d _ ih => exact ih hst
  | @moment p q _ ih =>
    simp only [Program.run]
    rw [henv.reading s t hst]
    exact ih _ (by rw [henv.moment, henv.moment, hst])
  | @ask i p q _ ih =>
    obtain ⟨hreply, hview⟩ := henv.answer i s t hst
    simp only [Program.run]
    rw [hreply]
    exact ih _ hview
  | extraSignal e _ ih => exact ih (by rw [henv.observe, hst])
  | extraMoment _ ih => exact ih _ (by rw [henv.moment, hst])

/-- Nobody can tell the second program from the first: it talks and ends in the same ways, and
against any answering function it comes to the same value and leaves the same behind. -/
structure Alike (p q : Program I α) : Prop where
  converses : ∀ said r, Converses q said r ↔ Converses p said r
  run : ∀ {σ τ : Type} (env : Surroundings I σ) (view : σ → τ), env.Unaffected view →
    ∀ s, (q.run env s).1 = (p.run env s).1 ∧ view (q.run env s).2 = view (p.run env s).2

theorem Observed.alike {p q : Program I α} (h : Observed p q) : Alike p q :=
  ⟨h.converses_iff, fun _ _ henv _ => h.run henv rfl⟩

end Program

end Reconciler
