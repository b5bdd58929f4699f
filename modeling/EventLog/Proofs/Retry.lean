/-
# The attempts of a retried operation

`RetryPolicy.run` hands a state through its attempts and returns how the last one ended. The
attempts before it leave no trace in that answer, so what is to be said of them is said of
`RetryPolicy.trail`, the list of all attempts as they begin. It is as long as the policy
permits at most, and everything in front of its last entry has failed in a way that was worth
another attempt.
-/

import EventLog.Retry

namespace EventLog.RetryPolicy

variable {α ξ σ : Type} (policy : RetryPolicy) (retryable : ξ → Bool) (pause : Nat → σ → σ)
  (operation : Nat → σ → Except ξ α × σ)

/-- The attempts that `tryFrom` makes, each with its number and the state in which it begins. -/
def trailFrom (left attempt delay : Nat) (state : σ) : List (Nat × σ) :=
  (attempt, state) ::
    match operation attempt state with
    | (.ok _, _) => []
    | (.error error, after) =>
      if retryable error then
        match left with
        | 0 => []
        | left + 1 =>
          trailFrom left (attempt + 1) (policy.nextDelay delay) (pause delay after)
      else []

/-- The attempts that `run` makes. -/
def trail (state : σ) : List (Nat × σ) :=
  trailFrom policy retryable pause operation (policy.attempts - 1) 1 policy.initialDelay state

/-- There is no attempt after this one: it succeeds, or fails for good, or none is left. -/
def IsLast (left attempt : Nat) (state : σ) : Prop :=
  ∀ e after, operation attempt state = (.error e, after) → retryable e = true → left = 0

variable {retryable operation} in
/-- Whether there is another attempt depends on the answer to this one alone. -/
theorem IsLast.congr {τ : Type} {other : Nat → τ → Except ξ α × τ} {left attempt : Nat} {state : σ}
    {seen : τ} (h : IsLast retryable operation left attempt state)
    (same : (other attempt seen).1 = (operation attempt state).1) :
    IsLast retryable other left attempt seen := by
  intro e after hfailed hretryable
  have hanswer : (operation attempt state).1 = .error e := same ▸ congrArg Prod.fst hfailed
  exact h e (operation attempt state).2 (Prod.ext hanswer rfl) hretryable

/-- How a run ends whose last attempt is answered like this. -/
def ending : Except ξ α → RetryOutcome α ξ
  | .ok value => .success value
  | .error e => if retryable e then .failed e else .permanentFailure e

theorem toExcept_ending (answer : Except ξ α) : (ending retryable answer).toExcept = answer := by
  cases answer with
  | ok value => rfl
  | error e => cases h : retryable e <;> simp [ending, h, RetryOutcome.toExcept]

variable {policy retryable pause operation} {left attempt delay : Nat} {state after : σ}

section Again

variable {e : ξ} (h : operation attempt state = (.error e, after)) (hretryable : retryable e = true)

include h hretryable

theorem trailFrom_of_retryable :
    trailFrom policy retryable pause operation (left + 1) attempt delay state =
      (attempt, state) :: trailFrom policy retryable pause operation left (attempt + 1)
        (policy.nextDelay delay) (pause delay after) := by
  rw [trailFrom, h]
  simp [hretryable]

theorem tryFrom_of_retryable :
    policy.tryFrom retryable pause operation (left + 1) attempt delay state =
      policy.tryFrom retryable pause operation left (attempt + 1) (policy.nextDelay delay)
        (pause delay after) := by
  rw [tryFrom, h]
  simp [hretryable]

end Again

section Last

variable (h : IsLast retryable operation left attempt state)

include h

theorem trailFrom_of_isLast :
    trailFrom policy retryable pause operation left attempt delay state = [(attempt, state)] := by
  unfold trailFrom
  rcases hattempt : operation attempt state with ⟨error | value, after⟩
  · by_cases hretryable : retryable error = true
    · obtain rfl := h error after hattempt hretryable
      simp [hretryable]
    · simp [hretryable]
  · rfl

theorem tryFrom_eq_ending :
    policy.tryFrom retryable pause operation left attempt delay state =
      (ending retryable (operation attempt state).1, (operation attempt state).2) := by
  unfold tryFrom
  rcases hattempt : operation attempt state with ⟨error | value, after⟩
  · by_cases hretryable : retryable error = true
    · obtain rfl := h error after hattempt hretryable
      simp [hretryable, ending]
    · simp [hretryable, ending]
  · rfl

theorem tryFrom_of_isLast :
    (policy.tryFrom retryable pause operation left attempt delay state).1.toExcept =
        (operation attempt state).1 ∧
      (policy.tryFrom retryable pause operation left attempt delay state).2 =
        (operation attempt state).2 := by
  rw [tryFrom_eq_ending h]
  exact ⟨toExcept_ending retryable _, rfl⟩

end Last

/-- An attempt that succeeds is the only one. -/
theorem run_of_ok {value : α} (h : operation 1 state = (.ok value, after)) :
    policy.run retryable pause operation state = (.success value, after) := by
  rw [run]
  unfold tryFrom
  rw [h]

/-- So is one that fails for good. -/
theorem run_of_permanent {e : ξ} (h : operation 1 state = (.error e, after))
    (hpermanent : retryable e = false) :
    policy.run retryable pause operation state = (.permanentFailure e, after) := by
  rw [run]
  unfold tryFrom
  rw [h]
  simp [hpermanent]

variable (policy retryable pause operation) in
/-- What holds of every last attempt, and of every attempt if it holds of the next one, holds
of all attempts. -/
theorem attempt_induction {motive : Nat → Nat → Nat → σ → Prop}
    (last : ∀ left attempt delay state, IsLast retryable operation left attempt state →
      motive left attempt delay state)
    (again : ∀ left attempt delay state e after, operation attempt state = (.error e, after) →
      retryable e = true →
      motive left (attempt + 1) (policy.nextDelay delay) (pause delay after) →
      motive (left + 1) attempt delay state)
    (left attempt delay : Nat) (state : σ) : motive left attempt delay state := by
  induction left generalizing attempt delay state with
  | zero => exact last 0 attempt delay state fun _ _ _ _ => rfl
  | succ left ih =>
      rcases hattempt : operation attempt state with ⟨error | value, after⟩
      · by_cases hretryable : retryable error = true
        · exact again left attempt delay state error after hattempt hretryable (ih _ _ _)
        · refine last _ _ _ _ fun e after' hfailed hretryable' => ?_
          rw [hattempt] at hfailed
          cases hfailed
          exact absurd hretryable' hretryable
      · refine last _ _ _ _ fun e after' hfailed => ?_
        rw [hattempt] at hfailed
        cases hfailed

theorem length_trailFrom_le (left attempt delay : Nat) (state : σ) :
    (trailFrom policy retryable pause operation left attempt delay state).length ≤ left + 1 := by
  induction left, attempt, delay, state
      using attempt_induction policy retryable pause operation with
  | last left attempt delay state hlast =>
      rw [trailFrom_of_isLast hlast]
      exact Nat.succ_le_succ (Nat.zero_le left)
  | again left attempt delay state e after hfailed hretryable ih =>
      rw [trailFrom_of_retryable hfailed hretryable]
      exact Nat.succ_le_succ ih

/-- The last attempt decides how it all ends, and every one before it has failed in passing. -/
theorem exists_last_trailFrom (left attempt delay : Nat) (state : σ) :
    ∃ front final, trailFrom policy retryable pause operation left attempt delay state =
        front ++ [final] ∧
      (∀ start ∈ front, ∃ e, (operation start.1 start.2).1 = .error e ∧ retryable e = true) ∧
      (policy.tryFrom retryable pause operation left attempt delay state).1.toExcept =
        (operation final.1 final.2).1 ∧
      (policy.tryFrom retryable pause operation left attempt delay state).2 =
        (operation final.1 final.2).2 := by
  induction left, attempt, delay, state
      using attempt_induction policy retryable pause operation with
  | last left attempt delay state hlast =>
      obtain ⟨hanswer, hafter⟩ := tryFrom_of_isLast hlast
      exact ⟨[], _, trailFrom_of_isLast hlast, by simp, hanswer, hafter⟩
  | again left attempt delay state e after hfailed hretryable ih =>
      obtain ⟨front, final, htrail, hfront, hanswer, hafter⟩ := ih
      rw [trailFrom_of_retryable hfailed hretryable, tryFrom_of_retryable hfailed hretryable]
      refine ⟨(attempt, state) :: front, final, congrArg _ htrail, fun start hstart => ?_, hanswer,
        hafter⟩
      rcases List.mem_cons.mp hstart with rfl | hstart
      · exact ⟨e, congrArg Prod.fst hfailed, hretryable⟩
      · exact hfront start hstart

/-- Every attempt begins in a state with a property that an attempt that fails in passing, and
the pause after it, do not change. -/
theorem of_mem_trailFrom {P : σ → Prop}
    (step : ∀ attempt state e after, P state → operation attempt state = (.error e, after) →
      retryable e = true → ∀ delay, P (pause delay after))
    (left attempt delay : Nat) {state : σ} (h : P state) :
    ∀ start ∈ trailFrom policy retryable pause operation left attempt delay state, P start.2 := by
  induction left, attempt, delay, state
      using attempt_induction policy retryable pause operation with
  | last left attempt delay state hlast =>
      rw [trailFrom_of_isLast hlast]
      intro start hstart
      rw [List.mem_singleton.mp hstart]
      exact h
  | again left attempt delay state e after hfailed hretryable ih =>
      rw [trailFrom_of_retryable hfailed hretryable]
      intro start hstart
      rcases List.mem_cons.mp hstart with rfl | hstart
      · exact h
      · exact ih (step attempt state e after h hfailed hretryable delay) start hstart

/-- What relates the attempts made so far to the state, and is kept by every attempt and every
pause, relates all attempts to the state in the end. -/
theorem tryFrom_keeps {P : List σ → σ → Prop}
    (attempted : ∀ made attempt state, P made state →
      P (made ++ [state]) (operation attempt state).2)
    (paused : ∀ made delay state, P made state → P made (pause delay state))
    (left attempt delay : Nat) {state : σ} {made : List σ} (h : P made state) :
    P (made ++ (trailFrom policy retryable pause operation left attempt delay state).map Prod.snd)
      (policy.tryFrom retryable pause operation left attempt delay state).2 := by
  induction left, attempt, delay, state
      using attempt_induction policy retryable pause operation generalizing made with
  | last left attempt delay state hlast =>
      rw [trailFrom_of_isLast hlast, (tryFrom_of_isLast hlast).2]
      exact attempted made attempt state h
  | again left attempt delay state e after hfailed hretryable ih =>
      rw [trailFrom_of_retryable hfailed hretryable, tryFrom_of_retryable hfailed hretryable]
      have hnext := attempted made attempt state h
      rw [hfailed] at hnext
      have hrest := ih (paused _ delay _ hnext)
      rwa [List.append_assoc] at hrest

theorem run_keeps {P : List σ → σ → Prop}
    (attempted : ∀ made attempt state, P made state →
      P (made ++ [state]) (operation attempt state).2)
    (paused : ∀ made delay state, P made state → P made (pause delay state)) {state : σ}
    (h : P [] state) :
    P ((trail policy retryable pause operation state).map Prod.snd)
      (policy.run retryable pause operation state).2 :=
  tryFrom_keeps attempted paused (policy.attempts - 1) 1 policy.initialDelay h

/-- No more attempts are made than the policy permits. -/
theorem length_trail_le (state : σ) :
    (trail policy retryable pause operation state).length ≤ policy.attempts := by
  have hpositive : 1 ≤ policy.attempts := Nat.le_max_left 1 _
  have hlength : (trail policy retryable pause operation state).length ≤ policy.attempts - 1 + 1 :=
    length_trailFrom_le _ _ _ _
  omega

end EventLog.RetryPolicy
