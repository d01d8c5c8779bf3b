import ReportQuery.Text.Casing
import ReportQuery.Text.Basic
/-!
# Retrying

An operation that fails is called again, after a delay, as long as the caller wants
to go on. Attempts count from 1. The delay after a failed attempt is a number of
milliseconds in 64 bits; a delay that would be longer is the greatest such number.
-/

namespace ReportQuery

open ReportQuery.Text

/-- How the delay depends on the attempt. -/
inductive DelayStrategy where
  /-- No delay. -/
  | none
  /-- The base delay. -/
  | constant
  /-- The base delay times the attempt. -/
  | linear
  /-- The base delay, doubled as many times as the attempt says. -/
  | exponential
deriving DecidableEq

/-- A text that names no delay strategy. -/
structure UnknownDelayStrategy where
  name : String
deriving DecidableEq

/-- The text of the error. -/
def UnknownDelayStrategy.message (e : UnknownDelayStrategy) : String :=
  s!"unknown delay strategy '{e.name}', expected none, constant, linear or exponential"

/-- The strategy of a name, in any case and with blanks around it. -/
def DelayStrategy.ofName (name : String) : Except UnknownDelayStrategy DelayStrategy :=
  match String.ofList (lower (trim name.toList)) with
  | "none" => .ok none
  | "constant" => .ok constant
  | "linear" => .ok linear
  | "exponential" => .ok exponential
  | _ => .error ⟨name⟩

/-- When to try again. -/
structure RetryPolicy where
  strategy : DelayStrategy
  /-- The base delay in milliseconds. -/
  baseDelay : UInt64
  /-- The number of attempts, if it is limited. -/
  maxAttempts : Option UInt32
deriving DecidableEq

namespace RetryPolicy

/-- The greatest delay. -/
def longest : UInt64 := 0xFFFFFFFFFFFFFFFF

/-- The product of two words, or the greatest word if it does not fit. -/
def boundedMul (a b : UInt64) : UInt64 :=
  if a.toNat * b.toNat ≤ longest.toNat then a * b else longest

/-- Two to the power of an attempt, or the greatest word if it does not fit. -/
def boundedPower (attempt : UInt32) : UInt64 :=
  if attempt < 64 then 1 <<< attempt.toUInt64 else longest

/-- The delay in milliseconds after a failed attempt. -/
def delay (p : RetryPolicy) (attempt : UInt32) : UInt64 :=
  match p.strategy with
  | .none => 0
  | .constant => p.baseDelay
  | .linear => boundedMul p.baseDelay attempt.toUInt64
  | .exponential => boundedMul p.baseDelay (boundedPower attempt)

/-- Whether another attempt is allowed after this one. -/
def allowsAfter (p : RetryPolicy) (attempt : UInt32) : Bool :=
  match p.maxAttempts with
  | some most => attempt < most
  | none => true

end RetryPolicy

/-! ## Runs -/

/-- What happened in a run: the outcome of its last call, the errors that the caller was
asked about with their attempts, and the time in milliseconds at which each call
started. -/
structure RetryRun (ε α : Type) where
  outcome : Except ε α
  asked : List (ε × UInt32)
  starts : List Nat

/-- The attempt after this one; the greatest is followed by itself. -/
def nextAttempt (attempt : UInt32) : UInt32 := if attempt = 0xFFFFFFFF then attempt else attempt + 1

namespace RetryPolicy

variable {ε α : Type}

/-- Runs the operation from an attempt at a time on, with at most `calls` calls. `outcomes`
says how a call ends, the first being 0, and `again` whether the caller wants to go on after
an error. Returns `none` if the run does not end with the last of these calls. -/
def runFrom (p : RetryPolicy) (outcomes : Nat → Except ε α) (again : ε → UInt32 → Bool) :
    (calls call : Nat) → (attempt : UInt32) → (time : Nat) → Option (RetryRun ε α)
  | 0, _, _, _ => none
  | calls + 1, call, attempt, time =>
    match outcomes call with
    | .ok a => some ⟨.ok a, [], [time]⟩
    | .error e =>
      if again e attempt then
        (p.runFrom outcomes again calls (call + 1) (nextAttempt attempt)
          (time + (p.delay attempt).toNat)).map fun rest =>
            ⟨rest.outcome, (e, attempt) :: rest.asked, time :: rest.starts⟩
      else some ⟨.error e, [(e, attempt)], [time]⟩

/-- Runs the operation from its first attempt on, with at most `calls` calls. -/
def run (p : RetryPolicy) (outcomes : Nat → Except ε α) (again : ε → UInt32 → Bool)
    (calls : Nat) : Option (RetryRun ε α) :=
  p.runFrom outcomes again calls 0 1 0

end RetryPolicy
end ReportQuery
