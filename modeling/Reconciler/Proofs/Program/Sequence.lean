import Reconciler.Retry

/-!
# Sequences that end at the first failure

Beside `Program.andThen` stands `Program.mapOk`, which converts the value of a success and leaves
failures alone. Whatever only looks at whether a program failed, and not at its value, goes through
it; repeating a program until it succeeds is such a thing.

## Main definitions

* `Program.mapOk` : convert the value of a success

## Main results

* `Program.andThen_eq_mapOk`, `Program.mapOk_andThen` : converting a success before going on
* `Program.interpret_andThen`, `Program.interpret_retry` : answering questions goes through
  sequences and repetition
* `Program.retry_mapOk` : repetition does not look at the value of a success
-/

namespace Reconciler

variable {I J : Interface} {α β γ : Type}

namespace Program

/-- Convert the value of a success. -/
def mapOk (f : α → β) (p : Program I (Except Error α)) : Program I (Except Error β) :=
  p.bind fun r => .done (r.map f)

/-! ### Sequences -/

/-- Two continuations that agree on successes and on failures. -/
theorem bind_ext (p : Program I (Except Error α)) {f g : Except Error α → Program I β}
    (hok : ∀ a, f (.ok a) = g (.ok a)) (herror : ∀ e, f (.error e) = g (.error e)) :
    p.bind f = p.bind g := by
  congr 1
  funext r
  cases r with
  | ok a => exact hok a
  | error e => exact herror e

@[simp] theorem andThen_ok (p : Program I (Except Error α)) :
    (p.andThen fun a => .done (.ok a)) = p := by
  calc p.andThen (fun a => .done (.ok a))
      = p.bind .done := bind_ext p (fun _ => rfl) fun _ => rfl
    _ = p := bind_done p

theorem andThen_eq_mapOk (f : α → β) (p : Program I (Except Error α)) :
    (p.andThen fun a => .done (.ok (f a))) = p.mapOk f :=
  bind_ext p (fun _ => rfl) fun _ => rfl

theorem mapOk_bind (f : α → β) (p : Program I (Except Error α))
    (g : Except Error β → Program I γ) :
    (p.mapOk f).bind g = p.bind fun r => g (r.map f) :=
  bind_assoc p _ g

theorem mapOk_andThen (f : α → β) (p : Program I (Except Error α))
    (g : β → Program I (Except Error γ)) :
    (p.mapOk f).andThen g = p.andThen fun a => g (f a) := by
  rw [andThen, mapOk_bind]
  exact bind_ext p (fun _ => rfl) fun _ => rfl

/-! ### Answering questions -/

variable (g : (q : I.Request) → Program J (I.Reply q))

theorem interpret_andThen (p : Program I (Except Error α)) (f : α → Program I (Except Error β)) :
    (p.andThen f).interpret g = (p.interpret g).andThen fun a => (f a).interpret g := by
  rw [andThen, interpret_bind]
  exact bind_ext _ (fun _ => rfl) fun _ => rfl

@[simp] theorem interpret_request (q : I.Request) : (request q).interpret g = g q :=
  bind_done (g q)

@[simp] theorem interpret_log (e : LogEvent) :
    (log e : Program I Unit).interpret g = log e := rfl

@[simp] theorem interpret_measure (ms : List Measurement) :
    (measure ms : Program I Unit).interpret g = measure ms := by
  induction ms with
  | nil => rfl
  | cons m ms ih => exact congrArg (signal (.measure m)) ih

theorem interpret_ite {c : Prop} [Decidable c] (p q : Program I α) :
    (if c then p else q).interpret g = if c then p.interpret g else q.interpret g := by
  split
  · rfl
  · rfl

/-! ### Repetition -/

theorem interpret_retryLoop {operation : Program I (Except Error α)}
    {notify : UInt32 → Error → Duration → Program I Unit}
    {notify' : UInt32 → Error → Duration → Program J Unit}
    (hnotify : ∀ attempt e delay, (notify attempt e delay).interpret g = notify' attempt e delay)
    (n : Nat) (cursor : Backoff) (attempt : UInt32) :
    (retryLoop operation notify n cursor attempt).interpret g =
      retryLoop (operation.interpret g) notify' n cursor attempt := by
  induction n generalizing cursor attempt with
  | zero => rfl
  | succ n ih =>
    rw [retryLoop, retryLoop, interpret_bind]
    refine bind_ext _ (fun a => rfl) fun e => ?_
    dsimp only
    rw [interpret_ite]
    congr 1
    refine congrArg moment (funext fun m => ?_)
    dsimp only
    split
    · rfl
    · rw [interpret_bind, hnotify]
      simp only [interpret_ite, interpret, ih]

theorem interpret_retry {notify : UInt32 → Error → Duration → Program I Unit}
    {notify' : UInt32 → Error → Duration → Program J Unit}
    (hnotify : ∀ attempt e delay, (notify attempt e delay).interpret g = notify' attempt e delay)
    (policy : RetryPolicy) (operation : Program I (Except Error α)) :
    (retry policy notify operation).interpret g = retry policy notify' (operation.interpret g) := by
  refine congrArg moment (funext fun m => ?_)
  exact interpret_retryLoop g hnotify _ _ _

theorem retryLoop_mapOk (f : α → β) (operation : Program I (Except Error α))
    (notify : UInt32 → Error → Duration → Program I Unit) (n : Nat) (cursor : Backoff)
    (attempt : UInt32) :
    retryLoop (operation.mapOk f) notify n cursor attempt =
      (retryLoop operation notify n cursor attempt).mapOk f := by
  induction n generalizing cursor attempt with
  | zero => rfl
  | succ n ih =>
    rw [retryLoop, retryLoop, mapOk_bind]
    refine Eq.trans ?_ (bind_assoc operation _ _).symm
    refine bind_ext _ (fun a => rfl) fun e => ?_
    simp only [Except.map]
    split
    · refine congrArg moment (funext fun m => ?_)
      dsimp only
      split
      · rfl
      · rw [bind_assoc]
        congr 1
        funext u
        rw [ih]
        split
        · rfl
        · rfl
    · rfl

theorem retry_mapOk (f : α → β) (policy : RetryPolicy)
    (notify : UInt32 → Error → Duration → Program I Unit) (operation : Program I (Except Error α)) :
    retry policy notify (operation.mapOk f) = (retry policy notify operation).mapOk f := by
  refine congrArg moment (funext fun m => ?_)
  exact retryLoop_mapOk f operation notify _ _ _

end Program

end Reconciler
