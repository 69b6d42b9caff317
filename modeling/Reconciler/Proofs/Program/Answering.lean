import Reconciler.Proofs.Program.Sequence
import Reconciler.Proofs.Program.Trace

/-!
# Questions answered by programs

Answering the questions of a program by programs can be done in several rounds, in sequences part by
part, and within a span.

A complete run of the result is a run of the program with every question and its answer replaced by
a run of the program that gave the answer (`Expands`).

## Main definitions

* `Program.Expands` : a run in which the questions of another are answered at length

## Main results

* `Program.interpret_interpret`, `interpret_sequence`, `interpret_inSpan` : rounds, parts and spans
* `Program.Runs.of_interpret` : a run of a program whose questions are answered by programs
-/

namespace Reconciler

namespace Program

variable {I J L : Interface} {α β : Type}

/-! ### Rounds, parts and spans -/

theorem interpret_interpret (f : (q : I.Request) → Program J (I.Reply q))
    (g : (q : J.Request) → Program L (J.Reply q)) (p : Program I α) :
    (p.interpret f).interpret g = p.interpret fun q => (f q).interpret g := by
  induction p with
  | done a => rfl
  | unfinished => rfl
  | signal s next ih => simp only [interpret, ih]
  | sleep d next ih => simp only [interpret, ih]
  | moment next ih => simp only [interpret, ih]
  | ask q next ih => simp only [interpret, interpret_bind, ih]

/-- Nothing happens if every question is passed on as it is. -/
@[simp] theorem interpret_ask (p : Program I α) : (p.interpret fun q => request q) = p := by
  induction p with
  | done a => rfl
  | unfinished => rfl
  | signal s next ih => simp only [interpret, ih]
  | sleep d next ih => simp only [interpret, ih]
  | moment next ih => simp only [interpret, ih]
  | ask q next ih => simp only [interpret, request_bind, ih]

theorem interpret_sequence (g : (q : I.Request) → Program J (I.Reply q))
    (ps : List (Program I (Except Error Unit))) :
    (sequence ps).interpret g = sequence (ps.map fun p => p.interpret g) := by
  induction ps with
  | nil => rfl
  | cons p ps ih => simp only [sequence, List.map_cons, interpret_andThen, ih]

theorem inSpan_bind (span : Span) (p : Program I α) (f : α → Program I β) :
    (p.bind f).inSpan span = (p.inSpan span).bind fun a => (f a).inSpan span := by
  induction p with
  | done a => rfl
  | unfinished => rfl
  | signal s next ih => rcases s with ⟨e, _ | sp⟩ | m <;> simp only [bind, inSpan, ih]
  | sleep d next ih => simp only [bind, inSpan, ih]
  | moment next ih => simp only [bind, inSpan, ih]
  | ask q next ih => simp only [bind, inSpan, ih]

/-- The span of a program is also the span of the programs that answer it. -/
theorem interpret_inSpan (span : Span) (g : (q : I.Request) → Program J (I.Reply q))
    (p : Program I α) :
    (p.inSpan span).interpret (fun q => (g q).inSpan span) = (p.interpret g).inSpan span := by
  induction p with
  | done a => rfl
  | unfinished => rfl
  | signal s next ih => rcases s with ⟨e, _ | sp⟩ | m <;> simp only [interpret, inSpan, ih]
  | sleep d next ih => simp only [interpret, inSpan, ih]
  | moment next ih => simp only [interpret, inSpan, ih]
  | ask q next ih => simp only [interpret, inSpan, inSpan_bind, ih]

/-! ### Runs -/

/-- The second run is the first with every question and its answer replaced by a run of the program
that came to the answer. -/
inductive Expands (g : (q : I.Request) → Program J (I.Reply q)) :
    List (Act I) → List (Act J) → Prop where
  /-- Nothing happens. -/
  | nil : Expands g [] []
  /-- Log or measure. -/
  | signalled (s : Signal) {as : List (Act I)} {bs : List (Act J)} (h : Expands g as bs) :
      Expands g (.signalled s :: as) (.signalled s :: bs)
  /-- Sleep. -/
  | slept (d : Duration) {as : List (Act I)} {bs : List (Act J)} (h : Expands g as bs) :
      Expands g (.slept d :: as) (.slept d :: bs)
  /-- Look at the clock. -/
  | looked (m : Moment) {as : List (Act I)} {bs : List (Act J)} (h : Expands g as bs) :
      Expands g (.looked m :: as) (.looked m :: bs)
  /-- A question is answered at length. -/
  | asked {q : I.Request} {rep : I.Reply q} {during : List (Act J)}
      (hq : Runs (g q) during (some rep)) {as : List (Act I)} {bs : List (Act J)}
      (h : Expands g as bs) : Expands g (.asked q rep :: as) (during ++ bs)

/-- A complete run of a program whose questions are answered by programs is a complete run of the
program, answered at length. -/
theorem Runs.of_interpret {g : (q : I.Request) → Program J (I.Reply q)} {p : Program I α}
    {bs : List (Act J)} {a : α} (h : Runs (p.interpret g) bs (some a)) :
    ∃ as, Runs p as (some a) ∧ Expands g as bs := by
  induction p generalizing bs with
  | done b =>
    obtain ⟨rfl, hb⟩ := h.of_done
    obtain rfl : a = b := by simpa using hb
    exact ⟨[], .done a, .nil⟩
  | unfinished => cases h with | step hs => cases hs
  | signal s next ih =>
    cases h with
    | step hs hrest =>
      cases hs
      obtain ⟨as, hruns, hexpands⟩ := ih hrest
      exact ⟨_, .step (.signal s next) hruns, .signalled s hexpands⟩
  | sleep d next ih =>
    obtain ⟨bs, rfl, hrest⟩ := h.of_sleep
    obtain ⟨as, hruns, hexpands⟩ := ih hrest
    exact ⟨_, .step (.sleep d next) hruns, .slept d hexpands⟩
  | moment next ih =>
    obtain ⟨m, bs, rfl, hrest⟩ := h.of_moment
    obtain ⟨as, hruns, hexpands⟩ := ih m hrest
    exact ⟨_, .step (.moment m next) hruns, .looked m hexpands⟩
  | ask q next ih =>
    obtain ⟨rep, during, bs, rfl, hanswer, hrest⟩ := h.complete_of_bind
    obtain ⟨as, hruns, hexpands⟩ := ih rep hrest
    exact ⟨_, .step (.ask rep next) hruns, .asked hanswer hexpands⟩

end Program

end Reconciler
