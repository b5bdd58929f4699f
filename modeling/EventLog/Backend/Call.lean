/-
# Calls that take time

A backend is asked and answers later, or never. A `Call` is such an exchange as the caller
sees it, with the state of the backend at every point where the caller might stop waiting.
A caller with a time limit that runs out gets a cancellation, and the state is the one at
that point: what the backend had done by then stays done.
-/

import EventLog.Error

namespace EventLog

inductive Call (β α : Type) where
  /-- The backend has answered. -/
  | answered (answer : Except Error α) (state : β)
  /-- The backend goes on after a pause of so many milliseconds. -/
  | pause (duration : Nat) (state : β) (rest : Call β α)
  /-- The backend will never answer. -/
  | silent (state : β)

/-- How a call ended: the answer, the backend afterwards and the time it took. -/
structure CallResult (β α : Type) where
  answer : Except Error α
  state : β
  elapsed : Nat

namespace Call

variable {β α : Type}

/-- Wait for the answer, if need be for ever. A pause that ends exactly when the time is up
is still waited for. A call that never answers ends when its caller does, which is a
cancellation as well. -/
def await (limit : Option Nat) : Call β α → CallResult β α
  | answered answer state => ⟨answer, state, 0⟩
  | silent state => ⟨.error .cancelled, state, limit.getD 0⟩
  | pause duration state rest =>
    match limit with
    | some time =>
      if time < duration then ⟨.error .cancelled, state, time⟩
      else
        let result := rest.await (some (time - duration))
        { result with elapsed := duration + result.elapsed }
    | none =>
      let result := rest.await none
      { result with elapsed := duration + result.elapsed }

@[simp] theorem await_answered (limit : Option Nat) (answer : Except Error α) (state : β) :
    (answered answer state).await limit = ⟨answer, state, 0⟩ := by
  cases limit <;> rfl

end Call

end EventLog
