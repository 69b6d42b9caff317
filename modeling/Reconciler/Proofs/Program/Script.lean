import Reconciler.Proofs.Program.Sequence

/-!
# Programs against a script

A script answers every question and says what the answer leaves behind. A program comes to a value
against a script if it does so whatever clock and chance are; what it asked on the way, and in which
state, is then fixed as well.

If every question of a program is answered by another program in turn, then what is asked in the end
is, question by question, what those programs ask. A program that stops at the first failure is
`Stepwise`: all its questions but the last were answered by a success, and the last one decides.

## Main definitions

* `fallible`, `Script` : questions that may fail, and answers to them
* `Program.Yields` : what a program comes to against a script, and what it asks
* `Program.Orderly`, `Program.Stepwise` : stopping at the first failure

## Main results

* `Program.Yields.run`, `Program.Yields.unique` : running such a program gives just that
* `Program.Yields.interpret` : questions answered by programs
* `Program.Stepwise.andThen` : sequences are stepwise
-/

namespace Reconciler

/-- Questions that may fail. -/
abbrev fallible (Q : Type) (R : Q → Type) : Interface where
  Request := Q
  Reply q := Except Error (R q)

/-- Answers to such questions, and what is left behind. -/
abbrev Script (Q : Type) (R : Q → Type) (σ : Type) := (q : Q) → σ → Except Error (R q) × σ

namespace Program

variable {I J : Interface} {α β σ : Type}

/-- Against the answers the program comes to a value and leaves a state, having asked certain
questions in certain states. Neither depends on the clock. -/
inductive Yields (answer : (q : I.Request) → σ → I.Reply q × σ) :
    Program I α → σ → List (I.Request × σ) → α → σ → Prop where
  /-- The end. -/
  | done (a : α) (s : σ) : Yields answer (.done a) s [] a s
  /-- Log or measure. -/
  | signal (e : Signal) {next : Program I α} {s t : σ} {log : List (I.Request × σ)} {a : α}
      (h : Yields answer next s log a t) : Yields answer (.signal e next) s log a t
  /-- Sleep. -/
  | sleep (d : Duration) {next : Program I α} {s t : σ} {log : List (I.Request × σ)} {a : α}
      (h : Yields answer next s log a t) : Yields answer (.sleep d next) s log a t
  /-- Look at the clock; whatever it shows makes no difference. -/
  | moment {next : Moment → Program I α} {s t : σ} {log : List (I.Request × σ)} {a : α}
      (h : ∀ m, Yields answer (next m) s log a t) : Yields answer (.moment next) s log a t
  /-- Ask. -/
  | ask {q : I.Request} {next : I.Reply q → Program I α} {s t : σ} {log : List (I.Request × σ)}
      {a : α} (h : Yields answer (next (answer q s).1) (answer q s).2 log a t) :
      Yields answer (.ask q next) s ((q, s) :: log) a t

variable {answer : (q : I.Request) → σ → I.Reply q × σ}

theorem Yields.ask_of {q : I.Request} {next : I.Reply q → Program I α} {s s' t : σ}
    {rep : I.Reply q} {log : List (I.Request × σ)} {a : α} (hanswer : answer q s = (rep, s'))
    (h : Yields answer (next rep) s' log a t) :
    Yields answer (.ask q next) s ((q, s) :: log) a t := by
  refine .ask ?_
  rw [hanswer]
  exact h

/-- Running the program in surroundings that give these answers. -/
theorem Yields.run {p : Program I α} {s t : σ} {log : List (I.Request × σ)} {a : α}
    (h : Yields answer p s log a t) {env : Surroundings I σ} (hanswer : env.answer = answer)
    (hmoment : ∀ s, (env.moment s).2 = s) (hobserve : ∀ e s, env.observe e s = s) :
    p.run env s = (some a, t) := by
  subst hanswer
  induction h with
  | done a s => rfl
  | signal e _ ih => rw [Program.run, hobserve, ih]
  | sleep d _ ih => exact ih
  | @moment next s t log a _ ih =>
    simp only [Program.run]
    rw [hmoment, ih]
  | ask _ ih => exact ih

/-- A script determines what a program asks, what it comes to and what it leaves. -/
theorem Yields.unique {p : Program I α} {s t t' : σ} {log log' : List (I.Request × σ)} {a a' : α}
    (h : Yields answer p s log a t) (h' : Yields answer p s log' a' t') :
    log = log' ∧ a = a' ∧ t = t' := by
  induction h generalizing log' with
  | done a s => cases h'; exact ⟨rfl, rfl, rfl⟩
  | signal e _ ih => cases h' with | signal _ h' => exact ih h'
  | sleep d _ ih => cases h' with | sleep _ h' => exact ih h'
  | moment _ ih => cases h' with | moment h' => exact ih default (h' default)
  | ask _ ih =>
    cases h' with
    | ask h' =>
      obtain ⟨rfl, ha, ht⟩ := ih h'
      exact ⟨rfl, ha, ht⟩

theorem Yields.bind {p : Program I α} {f : α → Program I β} {s t u : σ}
    {log log' : List (I.Request × σ)} {a : α} {b : β} (h : Yields answer p s log a t)
    (hf : Yields answer (f a) t log' b u) : Yields answer (p.bind f) s (log ++ log') b u := by
  induction h with
  | done a s => exact hf
  | signal e _ ih => exact .signal e (ih hf)
  | sleep d _ ih => exact .sleep d (ih hf)
  | moment _ ih => exact .moment fun m => ih m hf
  | ask _ ih => exact .ask (ih hf)

/-- Each question is answered by a program, which comes to the answer it should. -/
theorem Yields.interpret {answer' : (q : J.Request) → σ → J.Reply q × σ}
    {f : (q : I.Request) → Program J (I.Reply q)} {p : Program I α} {s t : σ}
    {log : List (I.Request × σ)} {a : α} (h : Yields answer p s log a t)
    (logs : I.Request → σ → List (J.Request × σ))
    (hf : ∀ u ∈ log, Yields answer' (f u.1) u.2 (logs u.1 u.2) (answer u.1 u.2).1
      (answer u.1 u.2).2) :
    Yields answer' (p.interpret f) s (log.flatMap fun u => logs u.1 u.2) a t := by
  induction h with
  | done a s => exact .done a s
  | signal e _ ih => exact .signal e (ih hf)
  | sleep d _ ih => exact .sleep d (ih hf)
  | moment _ ih => exact .moment fun m => ih m hf
  | @ask q next s t log a _ ih =>
    have hfirst := hf (q, s) (List.mem_cons_self ..)
    have hrest := ih fun u hu => hf u (List.mem_cons_of_mem _ hu)
    exact hfirst.bind hrest

theorem yields_log (e : LogEvent) (s : σ) : Yields answer (log e) s [] () s :=
  .signal _ (.done () s)

/-! ### Stopping at the first failure -/

variable {Q : Type} {R : Q → Type}

/-- All questions were answered by a success if the result is one; if it is a failure then the last
question was answered by it, and all others by a success. -/
def Orderly (script : Script Q R σ) (log : List (Q × σ)) : Except Error α → Prop
  | .ok _ => ∀ u ∈ log, ∃ r, (script u.1 u.2).1 = .ok r
  | .error e => ∃ before u, log = before ++ [u] ∧
      (∀ v ∈ before, ∃ r, (script v.1 v.2).1 = .ok r) ∧ (script u.1 u.2).1 = .error e

/-- More questions after a success. -/
theorem Orderly.append {script : Script Q R σ} {log log' : List (Q × σ)} {a : α}
    (h : Orderly script log (.ok a : Except Error α)) {x : Except Error β}
    (hx : Orderly script log' x) : Orderly script (log ++ log') x := by
  cases x with
  | ok b =>
    intro u hu
    rcases List.mem_append.1 hu with hu | hu
    · exact h u hu
    · exact hx u hu
  | error e =>
    obtain ⟨before, u, rfl, hbefore, hlast⟩ := hx
    refine ⟨log ++ before, u, (List.append_assoc ..).symm, fun v hv => ?_, hlast⟩
    rcases List.mem_append.1 hv with hv | hv
    · exact h v hv
    · exact hbefore v hv

/-- Against every script the program comes to a result, and stops at the first failure. -/
def Stepwise (p : Program (fallible Q R) (Except Error α)) : Prop :=
  ∀ (σ : Type) (script : Script Q R σ) (s : σ),
    ∃ log x t, Yields (I := fallible Q R) script p s log x t ∧ Orderly script log x

theorem stepwise_ok (a : α) : Stepwise (.done (.ok a) : Program (fallible Q R) _) := by
  intro σ script s
  refine ⟨[], .ok a, s, .done _ s, fun u hu => ?_⟩
  cases hu

theorem stepwise_request (q : Q) : Stepwise (request (I := fallible Q R) q) := by
  intro σ script s
  refine ⟨[(q, s)], (script q s).1, (script q s).2, .ask (.done _ _), ?_⟩
  cases hr : (script q s).1 with
  | ok r =>
    intro u hu
    obtain rfl := List.mem_singleton.1 hu
    exact ⟨r, hr⟩
  | error e => exact ⟨[], (q, s), rfl, by simp, hr⟩

theorem Stepwise.andThen {p : Program (fallible Q R) (Except Error α)} (hp : Stepwise p)
    {f : α → Program (fallible Q R) (Except Error β)} (hf : ∀ a, Stepwise (f a)) :
    Stepwise (p.andThen f) := by
  intro σ script s
  obtain ⟨log, x, t, hyields, horderly⟩ := hp σ script s
  cases x with
  | ok a =>
    obtain ⟨log', y, u, hyields', horderly'⟩ := hf a σ script t
    exact ⟨log ++ log', y, u, hyields.bind hyields', horderly.append horderly'⟩
  | error e =>
    refine ⟨log ++ [], .error e, t, hyields.bind (.done _ t), ?_⟩
    rw [List.append_nil]
    exact horderly

end Program

end Reconciler
