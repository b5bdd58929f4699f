/-
# Trying again

An operation that fails may be tried again after a pause, a limited number of times and
with pauses that grow by a factor up to a bound. Some errors are not worth a second try;
those end the attempts at once.

The operation and the pause act on a state that is handed through, so what was tried and
how long was waited can be read off it.
-/

namespace EventLog

/-- How often and how patiently to try. Delays are whole numbers of milliseconds. -/
structure RetryPolicy where
  maxAttempts : UInt32
  initialDelay : Nat
  maxDelay : Nat
  multiplier : Float

namespace RetryPolicy

def standard : RetryPolicy := ⟨3, 100, 10000, 2.0⟩

def aggressive : RetryPolicy := ⟨5, 50, 30000, 2.0⟩

def conservative : RetryPolicy := ⟨2, 200, 5000, 2.0⟩

/-- A single attempt. -/
def once : RetryPolicy := { standard with maxAttempts := 1 }

/-- The product of a delay and a factor in whole milliseconds. The delay is rounded to the
nearest float, whatever its size. Fractions of the product are dropped, negative and
undefined products count as none, and large ones stop at 64 bits. -/
def scale (delay : Nat) (factor : Float) : Nat :=
  (Float.ofNat delay * factor).toUInt64.toNat

/-- The pause after one of `delay`. -/
def nextDelay (policy : RetryPolicy) (delay : Nat) : Nat :=
  min (scale delay policy.multiplier) policy.maxDelay

/-- The attempts that may be made, at least one. -/
def attempts (policy : RetryPolicy) : Nat := max 1 policy.maxAttempts.toNat

theorem nextDelay_le (policy : RetryPolicy) (delay : Nat) :
    policy.nextDelay delay ≤ policy.maxDelay :=
  Nat.min_le_right _ _

end RetryPolicy

/-- How the attempts ended. -/
inductive RetryOutcome (α ξ : Type) where
  | success (value : α)
  /-- The last permitted attempt failed as well. -/
  | failed (error : ξ)
  /-- The error was not worth another attempt. -/
  | permanentFailure (error : ξ)
deriving DecidableEq

namespace RetryOutcome

variable {α ξ : Type}

def toExcept : RetryOutcome α ξ → Except ξ α
  | success value => .ok value
  | failed error => .error error
  | permanentFailure error => .error error

def isSuccess : RetryOutcome α ξ → Bool
  | success _ => true
  | _ => false

end RetryOutcome

namespace RetryPolicy

variable {α ξ σ : Type}

/-- Make attempt number `attempt` and, if it fails, up to `left` further ones. -/
def tryFrom (policy : RetryPolicy) (retryable : ξ → Bool) (pause : Nat → σ → σ)
    (operation : Nat → σ → Except ξ α × σ) (left attempt delay : Nat) (state : σ) :
    RetryOutcome α ξ × σ :=
  match operation attempt state with
  | (.ok value, state) => (.success value, state)
  | (.error error, state) =>
    if retryable error then
      match left with
      | 0 => (.failed error, state)
      | left + 1 =>
        tryFrom policy retryable pause operation left (attempt + 1) (policy.nextDelay delay)
          (pause delay state)
    else (.permanentFailure error, state)

/-- Try an operation as the policy says. Attempts are numbered from 1. -/
def run (policy : RetryPolicy) (retryable : ξ → Bool) (pause : Nat → σ → σ)
    (operation : Nat → σ → Except ξ α × σ) (state : σ) : RetryOutcome α ξ × σ :=
  policy.tryFrom retryable pause operation (policy.attempts - 1) 1 policy.initialDelay state

end RetryPolicy

end EventLog
