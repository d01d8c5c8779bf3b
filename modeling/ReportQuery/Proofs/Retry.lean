import Mathlib.Algebra.BigOperators.Group.Finset.Basic
import Mathlib.Algebra.BigOperators.Intervals
import ReportQuery.Retry
/-!
# What a run of retries does

A run goes on after a call just if the call failed and the caller wants another attempt
(`GoesOn`), so it ends with the first call after which it does not. What it returns, what the
caller was asked, and when its calls started are fixed by the place of that call (`IsRun`):
`run_eq_some` says that nothing else is ever returned, and that this is returned as soon as
enough calls are allowed. A caller who respects the limit of the policy ends every run
(`run_follows_outcomes`).
-/

namespace ReportQuery

variable {ε α : Type} {outcomes : Nat → Except ε α} {again : ε → UInt32 → Bool} {e : ε}
variable {calls call last : Nat} {run : RetryRun ε α}

/-! ## Attempts -/

/-- The greatest number of an attempt. -/
def greatestAttempt : Nat := 2 ^ 32 - 1

/-- The number of the attempt that a call makes, the first call being 0 and the first attempt 1.
Attempts are numbered in 32 bits, and the greatest number is that of all later ones. -/
def attemptOf (call : Nat) : UInt32 := .ofNat (min (call + 1) greatestAttempt)

/-- A run goes on after a call that failed, if the caller wants another attempt. -/
def GoesOn (outcomes : Nat → Except ε α) (again : ε → UInt32 → Bool) (call : Nat) : Prop :=
  ∃ e, outcomes call = .error e ∧ again e (attemptOf call) = true

/-- The error of a call with the number of its attempt, if the call failed. -/
def failedAttempt? (outcomes : Nat → Except ε α) (call : Nat) : Option (ε × UInt32) :=
  match outcomes call with
  | .ok _ => none
  | .error e => some (e, attemptOf call)

namespace RetryPolicy

variable {p : RetryPolicy}

/-- The time at which a call starts: the delays after all calls before it. -/
def startOf (p : RetryPolicy) (call : Nat) : Nat :=
  ∑ earlier ∈ Finset.range call, (p.delay (attemptOf earlier)).toNat

/-- What is seen of the calls from one to another, the last of a run. -/
def seenFrom (p : RetryPolicy) (outcomes : Nat → Except ε α) (call last : Nat) : RetryRun ε α where
  outcome := outcomes last
  asked := (List.range' call (last + 1 - call)).filterMap (failedAttempt? outcomes)
  starts := (List.range' call (last + 1 - call)).map p.startOf

/-- The call that ends a run, and what is then seen from a call on. -/
structure EndsAt (p : RetryPolicy) (outcomes : Nat → Except ε α) (again : ε → UInt32 → Bool)
    (call last : Nat) (run : RetryRun ε α) : Prop where
  le : call ≤ last
  goesOn : ∀ earlier, call ≤ earlier → earlier < last → GoesOn outcomes again earlier
  stops : ¬ GoesOn outcomes again last
  seen : run = p.seenFrom outcomes call last

end RetryPolicy
end ReportQuery
