/-
# The attempts of an execution

`Repository.execute` is a retried operation whose attempts load, act and save. An answer shows
nothing of the attempts that have failed, so they are made visible here in two ways, and the
two agree (`Repository.execute_recorded`). `Repository.attempts` lists the states in which the
attempts begin, and with them the aggregates on which the action is invoked; `recorded` is an
action that keeps such a list itself while it is executed.
-/

import EventLog.Proofs.Retry
import EventLog.Repository.Basic
import Mathlib.Data.List.Basic

namespace EventLog

variable {ε β η ω σ κ : Type} [EventType ε]

/-- The same action, with a list of the aggregates on which it has been invoked. -/
def recorded (action : Aggregate ε σ → κ → Except Error (Aggregate ε σ) × κ)
    (a : Aggregate ε σ) (own : κ × List (Aggregate ε σ)) :
    Except Error (Aggregate ε σ) × κ × List (Aggregate ε σ) :=
  ((action a own.1).1, (action a own.1).2, own.2 ++ [a])

namespace Repository

variable [DecidableEq η] (r : Repository ε β η ω) (type : AggregateType ε σ) (id : String)
  (policy : RetryPolicy)
  (action : Aggregate ε σ → κ → Except Error (Aggregate ε σ) × κ)

/-- One attempt of an execution: load, act and save. -/
def attempt : World β η ω × κ → Except Error (Aggregate ε σ) × World β η ω × κ :=
  fun (w, own) =>
    match r.loadOrNew type id w with
    | (.error e, w) => (.error e, w, own)
    | (.ok aggregate, w) =>
      match action aggregate own with
      | (.error e, own) => (.error e, w, own)
      | (.ok changed, own) =>
        match r.save type changed (some changed.originalVersion) w with
        | (.error e, _, w) => (.error e, w, own)
        | (.ok (), saved, w) => (.ok saved, w, own)

/-- The attempts of an execution, each as it begins. -/
def attempts (state : World β η ω × κ) : List (World β η ω × κ) :=
  (policy.trail Error.isTransient (fun duration (w, own) => (w.wait duration, own))
    (fun _ => r.attempt type id action) state).map Prod.snd

/-- The aggregate on which an attempt that begins like this invokes the action, if it comes to
that. -/
def invokedOn (state : World β η ω × κ) : Option (Aggregate ε σ) :=
  (r.loadOrNew type id state.1).1.toOption

theorem execute_eq_run (state : World β η ω × κ) :
    r.execute type id policy action state =
      policy.run Error.isTransient (fun duration (w, own) => (w.wait duration, own))
        (fun _ => r.attempt type id action) state := rfl

variable {r type id policy action}

/-- An attempt of the recorded action goes as one of the action, and if it comes to an
invocation, that is put in the list. -/
theorem attempt_recorded (w : World β η ω) (own : κ) (seen : List (Aggregate ε σ)) :
    r.attempt type id (recorded action) (w, own, seen) =
      ((r.attempt type id action (w, own)).1, (r.attempt type id action (w, own)).2.1,
        (r.attempt type id action (w, own)).2.2,
        seen ++ (r.invokedOn type id (w, own)).toList) := by
  dsimp only [attempt, invokedOn, recorded]
  rcases r.loadOrNew type id w with ⟨e | a, loaded⟩
  · simp [Except.toOption]
  · dsimp only [Except.toOption, Option.toList]
    rcases action a own with ⟨e | changed, after⟩
    · rfl
    · dsimp only
      rcases r.save type changed (some changed.originalVersion) loaded with
        ⟨e | done, saved, left⟩ <;> rfl

/-- Recording the invocations changes nothing else, and the record is of the attempts. -/
theorem execute_recorded (w : World β η ω) (own : κ) (seen : List (Aggregate ε σ)) :
    r.execute type id policy (recorded action) (w, own, seen) =
      let result := r.execute type id policy action (w, own)
      (result.1, result.2.1, result.2.2,
        seen ++ (r.attempts type id policy action (w, own)).filterMap (r.invokedOn type id)) := by
  rw [execute_eq_run, execute_eq_run, attempts, RetryPolicy.trail,
    List.filterMap_eq_flatMap_toList]
  unfold RetryPolicy.run
  generalize policy.attempts - 1 = left
  generalize (1 : Nat) = number
  generalize policy.initialDelay = delay
  induction left generalizing number delay w own seen with
  | zero =>
      unfold RetryPolicy.tryFrom RetryPolicy.trailFrom
      rw [attempt_recorded]
      rcases hattempt : r.attempt type id action (w, own) with ⟨e | saved, after⟩
      · by_cases he : e.isTransient = true <;> simp [he]
      · simp
  | succ left ih =>
      unfold RetryPolicy.tryFrom RetryPolicy.trailFrom
      rw [attempt_recorded]
      rcases hattempt : r.attempt type id action (w, own) with ⟨e | saved, after⟩
      · by_cases he : e.isTransient = true
        · simp [he, ih]
        · simp [he]
      · simp

/-- No more attempts are made than the policy permits. -/
theorem length_attempts_le (state : World β η ω × κ) :
    (r.attempts type id policy action state).length ≤ max 1 policy.maxAttempts.toNat := by
  rw [attempts, List.length_map]
  exact RetryPolicy.length_trail_le state

variable (r type id policy action) in
/-- What an attempt comes to decides the execution if it is the last one, and another attempt is
made only after a failure that may pass. -/
theorem exists_last_attempt (state : World β η ω × κ) :
    ∃ front final, r.attempts type id policy action state = front ++ [final] ∧
      (∀ begun ∈ front, ∃ e, (r.attempt type id action begun).1 = .error e ∧
        e.isTransient = true) ∧
      r.attempt type id action final = ((r.execute type id policy action state).1.toExcept,
        (r.execute type id policy action state).2) := by
  rw [execute_eq_run, attempts, RetryPolicy.trail]
  obtain ⟨front, final, htrail, hfront, hanswer, hafter⟩ := RetryPolicy.exists_last_trailFrom
    (policy.attempts - 1) 1 policy.initialDelay state
  refine ⟨front.map Prod.snd, final.2, ?_, fun begun hbegun => ?_, ?_⟩
  · rw [htrail, List.map_append, List.map_singleton]
  · obtain ⟨start, hstart, rfl⟩ := List.mem_map.mp hbegun
    exact hfront start hstart
  · exact Prod.ext hanswer.symm hafter.symm

end Repository

end EventLog
