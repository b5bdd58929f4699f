/-
# How long is waited between attempts

A policy has a bound for its pauses, and `nextDelay` keeps to it whatever the factor is: the
bound is taken after the product has been turned into a number, so that an undefined, infinite
or negative product is bounded like any other. But a pause is computed from the pause before
it, and the first one has none before it. It is the initial delay of the policy as it stands,
and nothing compares that with the bound.

The pauses of a run are read off the run itself, by handing it a state that notes each pause
next to what was there (`pauses`). They are the iterates of `nextDelay` on the initial delay,
one fewer than there are attempts (`pauses_eq`). So every pause but the first is bounded, and
the first one is what decides whether all of them are.
-/

import EventLog.Error
import EventLog.Proofs.Retry
import Mathlib.Data.List.Iterate

namespace EventLog.RetryPolicy

variable {α ξ σ : Type}

/-- Pause, and note for how long. -/
def noting (pause : Nat → σ → σ) (delay : Nat) (state : σ × List Nat) : σ × List Nat :=
  (pause delay state.1, state.2 ++ [delay])

/-- The operation beside the notes, which it leaves alone. -/
def besideNotes (operation : Nat → σ → Except ξ α × σ) (attempt : Nat) (state : σ × List Nat) :
    Except ξ α × (σ × List Nat) :=
  ((operation attempt state.1).1, (operation attempt state.1).2, state.2)

/-- The pauses that a run makes, in order. -/
def pauses (policy : RetryPolicy) (retryable : ξ → Bool) (pause : Nat → σ → σ)
    (operation : Nat → σ → Except ξ α × σ) (state : σ) : List Nat :=
  (policy.run retryable (noting pause) (besideNotes operation) (state, [])).2.2

variable {policy : RetryPolicy} {retryable : ξ → Bool} {pause : Nat → σ → σ}
  {operation : Nat → σ → Except ξ α × σ}

theorem besideNotes_eq {attempt : Nat} {state after : σ} {answer : Except ξ α}
    (h : operation attempt state = (answer, after)) (notes : List Nat) :
    besideNotes operation attempt (state, notes) = (answer, after, notes) := by
  rw [besideNotes, h]

/-- Noting the pauses changes nothing else, and from any attempt on they are the iterates of
`nextDelay`, one before each further attempt. -/
theorem tryFrom_noting (left attempt delay : Nat) (state : σ) (notes : List Nat) :
    policy.tryFrom retryable (noting pause) (besideNotes operation) left attempt delay
        (state, notes) =
      ((policy.tryFrom retryable pause operation left attempt delay state).1,
        (policy.tryFrom retryable pause operation left attempt delay state).2,
        notes ++ List.iterate policy.nextDelay delay
          ((trailFrom policy retryable pause operation left attempt delay state).length - 1)) := by
  induction left, attempt, delay, state
      using attempt_induction policy retryable pause operation generalizing notes with
  | last left attempt delay state hlast =>
      rw [trailFrom_of_isLast hlast, tryFrom_eq_ending hlast,
        tryFrom_eq_ending (hlast.congr (by rfl))]
      simp [besideNotes, List.iterate]
  | again left attempt delay state e after hfailed hretryable ih =>
      have hpositive : 0 < (trailFrom policy retryable pause operation left (attempt + 1)
          (policy.nextDelay delay) (pause delay after)).length := by
        rw [trailFrom]
        exact Nat.succ_pos _
      obtain ⟨further, hfurther⟩ := Nat.exists_eq_add_one.mpr hpositive
      rw [tryFrom_of_retryable (besideNotes_eq hfailed notes) hretryable,
        tryFrom_of_retryable hfailed hretryable, trailFrom_of_retryable hfailed hretryable, noting,
        ih, List.length_cons, hfurther, Nat.add_sub_cancel, Nat.add_sub_cancel, List.iterate,
        List.append_assoc, List.singleton_append]

/-- The pauses of a run are the iterates of `nextDelay` on the initial delay, one between any two
attempts that follow each other. -/
theorem pauses_eq (state : σ) : pauses policy retryable pause operation state =
    List.iterate policy.nextDelay policy.initialDelay
      ((trail policy retryable pause operation state).length - 1) := by
  rw [pauses, run, tryFrom_noting, List.nil_append, trail]

/-- Every iterate but the first is bounded. -/
theorem iterate_nextDelay_le (policy : RetryPolicy) (delay n : Nat) :
    policy.nextDelay^[n + 1] delay ≤ policy.maxDelay := by
  rw [Function.iterate_succ_apply']
  exact policy.nextDelay_le _

/-- A run makes one pause fewer than attempts. The first is the initial delay of the policy, the
bound holds of every later one, and it holds of all of them if the initial delay is within it,
or if there is no pause at all, and in no other run. -/
theorem pauses_bounded_behind_first (policy : RetryPolicy) (retryable : ξ → Bool)
    (pause : Nat → σ → σ) (operation : Nat → σ → Except ξ α × σ) (state : σ) :
    let made := pauses policy retryable pause operation state
    (trail policy retryable pause operation state).length = made.length + 1 ∧
    (made.head? = none ∨ made.head? = some policy.initialDelay) ∧
    (∀ delay ∈ made.tail, delay ≤ policy.maxDelay) ∧
    ((∀ delay ∈ made, delay ≤ policy.maxDelay) ↔
      made = [] ∨ policy.initialDelay ≤ policy.maxDelay) := by
  intro made
  have hmade : made = _ := pauses_eq state
  have hlength : (trail policy retryable pause operation state).length = made.length + 1 := by
    rw [hmade, List.length_iterate, trail, trailFrom, List.length_cons, Nat.add_sub_cancel]
  refine ⟨hlength, ?_⟩
  generalize (trail policy retryable pause operation state).length - 1 = n at hmade
  rw [hmade]
  cases n with
  | zero => simp
  | succ n =>
      have hlater : ∀ delay ∈
          List.iterate policy.nextDelay (policy.nextDelay policy.initialDelay) n,
          delay ≤ policy.maxDelay := by
        intro delay hdelay
        obtain ⟨i, -, rfl⟩ := List.mem_iterate.mp hdelay
        exact iterate_nextDelay_le policy policy.initialDelay i
      rw [List.iterate, List.head?_cons, List.tail_cons]
      refine ⟨.inr rfl, hlater, fun h => .inr (h _ List.mem_cons_self), fun h delay hdelay => ?_⟩
      obtain hnone | hinitial := h
      · cases hnone
      · obtain rfl | hdelay := List.mem_cons.mp hdelay
        · exact hinitial
        · exact hlater delay hdelay

/-- An operation that fails once in passing is waited for longer than the bound allows, whether
all errors are worth another attempt or only those that may pass. -/
theorem not_pauses_le_maxDelay :
    let policy : RetryPolicy := ⟨2, 10, 5, 2.0⟩
    let operation : Nat → Unit → Except Error Nat × Unit := fun attempt _ =>
      if attempt = 1 then (.error (.unavailable "down"), ()) else (.ok 1, ())
    let idle : Nat → Unit → Unit := fun _ _ => ()
    ¬ (∀ delay ∈ pauses policy Error.isTransient idle operation (), delay ≤ policy.maxDelay) ∧
      ¬ ∀ delay ∈ pauses policy (fun _ => true) idle operation (), delay ≤ policy.maxDelay := by
  intro policy operation idle
  have hbound : ¬ (10 ≤ policy.maxDelay) := by decide
  exact ⟨fun h => hbound (h 10 (List.mem_singleton_self 10)),
    fun h => hbound (h 10 (List.mem_singleton_self 10))⟩

end EventLog.RetryPolicy
