import Reconciler.Telemetry.Log
import Reconciler.Telemetry.Metric

/-!
# Programs

The library never talks to anything itself. A reconciliation is a `Program`: a tree that asks
questions of its surroundings, logs and measures, sleeps, and in the end yields a value. What may be
asked is an `Interface`, so a program over `Interface`s of object clients, of resources or of an
HTTP server has the same shape, and `Program.interpret` answers the questions of one interface by
programs over another.

`unfinished` is the end of a program whose loop was cut off by its horizon. No statement about a
finished run has to consider it.

## Running

`Program.advance` runs a program against an answering function until it ends or sleeps. The answers
may depend on a state, which is how a store or a script is put behind an interface.

## Main definitions

* `Interface` : the questions that can be asked and the type of each answer
* `Program`, `Program.bind` : programs and their sequencing
* `Program.interpret` : answering one interface by another
* `Program.advance` : running up to the next sleep

## Main results

* `bind_done`, `bind_assoc` : sequencing is a monad
* `interpret_bind` : answering questions goes through sequencing
-/

namespace Reconciler

/-- Questions a program may ask, and what an answer to each of them is. -/
structure Interface where
  /-- The questions. -/
  Request : Type
  /-- What is answered to a question. -/
  Reply : Request → Type

/-- What a draw from a backoff policy depends on besides the policy: the reading of the wall clock
and a number between 0 and 1 that spreads the delay. -/
structure Moment where
  /-- Reading of the wall clock. -/
  wall : Duration
  /-- Where in its range a spread delay lies. -/
  chance : Float
deriving Inhabited, Repr

/-- What a program lets others observe. -/
inductive Signal where
  /-- A log entry. -/
  | log (entry : LogEntry)
  /-- A recording of an instrument. -/
  | measure (m : Measurement)
deriving DecidableEq, Repr

/-- A computation over the questions of `I` that yields an `α`. -/
inductive Program (I : Interface) (α : Type) : Type where
  /-- The end, with its value. -/
  | done (a : α)
  /-- A loop reached its horizon. -/
  | unfinished
  /-- Log or measure, then go on. -/
  | signal (s : Signal) (next : Program I α)
  /-- Sleep, then go on. -/
  | sleep (d : Duration) (next : Program I α)
  /-- Read clock and chance, then go on. -/
  | moment (next : Moment → Program I α)
  /-- Ask, then go on with the answer. -/
  | ask (q : I.Request) (next : I.Reply q → Program I α)

namespace Program

variable {I J : Interface} {α β γ σ : Type}

/-- Go on with `f` once the program has yielded its value. -/
def bind : Program I α → (α → Program I β) → Program I β
  | done a, f => f a
  | unfinished, _ => unfinished
  | signal s next, f => signal s (next.bind f)
  | sleep d next, f => sleep d (next.bind f)
  | moment next, f => moment fun m => (next m).bind f
  | ask q next, f => ask q fun r => (next r).bind f

instance : Monad (Program I) where
  pure := done
  bind := bind

/-- Ask one question. -/
def request (q : I.Request) : Program I (I.Reply q) := ask q done

/-- Log an event. -/
def log (e : LogEvent) : Program I Unit := signal (.log ⟨e, none⟩) (done ())

/-- Record measurements in order. -/
def measure (ms : List Measurement) : Program I Unit :=
  ms.foldr (fun m p => signal (.measure m) p) (done ())

/-- Go on with the value of a success; a failure ends the program. -/
def andThen (p : Program I (Except Error α)) (f : α → Program I (Except Error β)) :
    Program I (Except Error β) :=
  p.bind fun
    | .ok a => f a
    | .error e => done (.error e)

/-- Run the programs in order up to the first failure. -/
def sequence : List (Program I (Except Error Unit)) → Program I (Except Error Unit)
  | [] => done (.ok ())
  | p :: ps => p.andThen fun _ => sequence ps

/-- Put every log entry that has no span yet into `span`. -/
def inSpan (span : Span) : Program I α → Program I α
  | done a => done a
  | unfinished => unfinished
  | signal (.log ⟨e, none⟩) next => signal (.log ⟨e, some span⟩) (next.inSpan span)
  | signal s next => signal s (next.inSpan span)
  | sleep d next => sleep d (next.inSpan span)
  | moment next => moment fun m => (next m).inSpan span
  | ask q next => ask q fun r => (next r).inSpan span

/-- Answer every question of `I` by a program over `J`. -/
def interpret (f : (q : I.Request) → Program J (I.Reply q)) : Program I α → Program J α
  | done a => done a
  | unfinished => unfinished
  | signal s next => signal s (next.interpret f)
  | sleep d next => sleep d (next.interpret f)
  | moment next => moment fun m => (next m).interpret f
  | ask q next => (f q).bind fun r => (next r).interpret f

/-- What a program runs against: answers that may change a state of type `σ`, a source of clock
readings, and a place for signals. -/
structure Surroundings (I : Interface) (σ : Type) where
  /-- Answer a question. -/
  answer : (q : I.Request) → σ → I.Reply q × σ
  /-- Read clock and chance. -/
  moment : σ → Moment × σ
  /-- Take note of a signal. -/
  observe : Signal → σ → σ

/-- How far a program came: its value, its horizon, or a sleep with what is left. -/
inductive Progress (I : Interface) (α : Type) where
  /-- The program ended. -/
  | finished (a : α)
  /-- A loop of the program reached its horizon. -/
  | cutOff
  /-- The program sleeps. -/
  | asleep (d : Duration) (rest : Program I α)

/-- Run a program until it ends or sleeps. -/
def advance (env : Surroundings I σ) : Program I α → σ → Progress I α × σ
  | done a, s => (.finished a, s)
  | unfinished, s => (.cutOff, s)
  | signal e next, s => next.advance env (env.observe e s)
  | sleep d next, s => (.asleep d next, s)
  | moment next, s =>
    let r := env.moment s
    (next r.1).advance env r.2
  | ask q next, s =>
    let r := env.answer q s
    (next r.1).advance env r.2

/-- Run a program to its end, sleeping through no time; nothing if a horizon was reached. -/
def run (env : Surroundings I σ) : Program I α → σ → Option α × σ
  | done a, s => (some a, s)
  | unfinished, s => (none, s)
  | signal e next, s => next.run env (env.observe e s)
  | sleep _ next, s => next.run env s
  | moment next, s =>
    let r := env.moment s
    (next r.1).run env r.2
  | ask q next, s =>
    let r := env.answer q s
    (next r.1).run env r.2

@[simp] theorem done_bind (a : α) (f : α → Program I β) : (done a).bind f = f a := rfl

@[simp] theorem bind_done (p : Program I α) : p.bind done = p := by
  induction p with
  | done a => rfl
  | unfinished => rfl
  | signal s next ih => simp only [bind, ih]
  | sleep d next ih => simp only [bind, ih]
  | moment next ih => simp only [bind, ih]
  | ask q next ih => simp only [bind, ih]

theorem bind_assoc (p : Program I α) (f : α → Program I β) (g : β → Program I γ) :
    (p.bind f).bind g = p.bind fun a => (f a).bind g := by
  induction p with
  | done a => rfl
  | unfinished => rfl
  | signal s next ih => simp only [bind, ih]
  | sleep d next ih => simp only [bind, ih]
  | moment next ih => simp only [bind, ih]
  | ask q next ih => simp only [bind, ih]

@[simp] theorem request_bind (q : I.Request) (f : I.Reply q → Program I β) :
    (request q).bind f = ask q f := rfl

@[simp] theorem log_bind (e : LogEvent) (f : Unit → Program I β) :
    (log e : Program I Unit).bind f = signal (.log ⟨e, none⟩) (f ()) := rfl

@[simp] theorem done_ok_andThen (a : α) (f : α → Program I (Except Error β)) :
    (done (.ok a)).andThen f = f a := rfl

@[simp] theorem done_error_andThen (e : Error) (f : α → Program I (Except Error β)) :
    (done (.error e)).andThen f = done (.error e) := rfl

theorem interpret_bind (g : (q : I.Request) → Program J (I.Reply q)) (p : Program I α)
    (f : α → Program I β) :
    (p.bind f).interpret g = (p.interpret g).bind fun a => (f a).interpret g := by
  induction p with
  | done a => rfl
  | unfinished => rfl
  | signal s next ih => simp only [bind, interpret, ih]
  | sleep d next ih => simp only [bind, interpret, ih]
  | moment next ih => simp only [bind, interpret, ih]
  | ask q next ih => simp only [bind, interpret, ih, bind_assoc]

end Program

end Reconciler
