import Reconciler.Backoff

/-!
# Retrying

`retry` runs an operation until it succeeds, fails for good, or the backoff is exhausted; the last
error is returned as it is. Before every wait it hands the number of the failed attempt, its error
and the delay to `notify`. A call that fails for good draws nothing from the policy.

`retryLogged` is the same with the notices as warnings in the log, and one error when it gives up.
-/

namespace Reconciler

variable {I : Interface} {α : Type}

/-- The retry loop over at most `n` more attempts, the next of which is number `attempt`. Attempts
are numbered in 32 bits, and the number after the last of them is zero. -/
def retryLoop (operation : Program I (Except Error α))
    (notify : UInt32 → Error → Duration → Program I Unit) :
    (n : Nat) → (cursor : Backoff) → (attempt : UInt32) → Program I (Except Error α)
  | 0, _, _ => .unfinished
  | n + 1, cursor, attempt =>
    operation.bind fun
      | .ok a => .done (.ok a)
      | .error e =>
        if e.isRetryable then
          .moment fun m =>
            match cursor.next m with
            | (none, _) => .done (.error e)
            | (some delay, rest) =>
              (notify attempt e delay).bind fun _ =>
                if delay.isZero then retryLoop operation notify n rest (attempt + 1)
                else .sleep delay (retryLoop operation notify n rest (attempt + 1))
        else .done (.error e)

/-- Run `operation` under `policy`, from the start of the policy. -/
def retry (policy : RetryPolicy) (notify : UInt32 → Error → Duration → Program I Unit)
    (operation : Program I (Except Error α)) : Program I (Except Error α) :=
  .moment fun m => retryLoop operation notify policy.horizon (policy.cursor m.wall) 1

/-- Run `operation` under `policy` and log what fails: each retry as a warning, and giving up as an
error. -/
def retryLogged (policy : RetryPolicy) (name : String) (operation : Program I (Except Error α)) :
    Program I (Except Error α) :=
  (retry policy (fun attempt e delay => .log (.operationRetried name attempt e delay))
    operation).bind fun
      | .ok a => .done (.ok a)
      | .error e => (Program.log (.operationAbandoned name e)).bind fun _ => .done (.error e)

end Reconciler
