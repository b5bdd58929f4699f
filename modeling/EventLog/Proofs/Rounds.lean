/-
# Trying again, round by round

What a run does is more than what it answers: which attempts it makes, under which numbers, and
how long it waits between which of them. Handed a state that takes notes, a run tells all of it
(`logging`, `logged`), and what is noted has one shape, `timelineFrom`. Attempts are numbered on
from the first, there is one pause between any two of them, and each pause is computed from the
one before.

How many attempts there are depends on their answers alone. `resultFrom` follows the attempts as
if none were the last, each in the state that the one before it and the pause have left, so the
answers are there to be asked about whether or not a run gets as far. A run goes on through
answers that are worth another attempt and ends with the first that is not, or with the last
attempt that the policy permits: `Takes` says it from any attempt on, `StopsAt` of the whole run.

The run counts down what it may still do, and so it has no counter that could overflow or miss
its limit. `Rounds` is the loop with such a counter: one of 32 bits, which is raised before each
attempt and compared with the limit after it, whatever the limit is. It comes to an end, and to
the same one (`rounds_iff_run`).
-/

import EventLog.Error
import EventLog.Proofs.Retry
import Mathlib.Data.List.Iterate

namespace EventLog

/-- The errors that may pass are conflicts and an unavailable backend. -/
theorem Error.isTransient_iff {e : Error} :
    e.isTransient = true ↔
      (∃ stream expected actual, e = .conflict stream expected actual) ∨
        ∃ cause, e = .unavailable cause := by
  cases e <;> simp [isTransient]

namespace RetryPolicy

variable {α ξ σ : Type}

/-- Something that a run does. -/
inductive Moment where
  | tried (attempt : Nat)
  | waited (delay : Nat)
deriving DecidableEq

def Moment.attempt? : Moment → Option Nat
  | tried attempt => some attempt
  | waited _ => none

def Moment.delay? : Moment → Option Nat
  | tried _ => none
  | waited delay => some delay

/-- Pause, and note it. -/
def logging (pause : Nat → σ → σ) (delay : Nat) (state : σ × List Moment) : σ × List Moment :=
  (pause delay state.1, state.2 ++ [.waited delay])

/-- Make the attempt, and note it. -/
def logged (operation : Nat → σ → Except ξ α × σ) (attempt : Nat) (state : σ × List Moment) :
    Except ξ α × (σ × List Moment) :=
  ((operation attempt state.1).1, (operation attempt state.1).2, state.2 ++ [.tried attempt])

/-- The answer is an error that is worth another attempt. -/
def isPassing (retryable : ξ → Bool) : Except ξ α → Bool
  | .ok _ => false
  | .error e => retryable e

section Attempts

variable (policy : RetryPolicy) (retryable : ξ → Bool) (pause : Nat → σ → σ)
  (operation : Nat → σ → Except ξ α × σ)

/-- The result of the attempt that comes `further` attempts after this one, if each of those
before it is followed by a pause and by another attempt. -/
def resultFrom : Nat → Nat → Nat → σ → Except ξ α × σ
  | 0, attempt, _, state => operation attempt state
  | further + 1, attempt, delay, state =>
    resultFrom further (attempt + 1) (policy.nextDelay delay)
      (pause delay (operation attempt state).2)

/-- One attempt, then a pause and the next attempt, `further` times. -/
def timelineFrom : Nat → Nat → Nat → List Moment
  | 0, attempt, _ => [.tried attempt]
  | further + 1, attempt, delay =>
    .tried attempt :: .waited delay ::
      timelineFrom further (attempt + 1) (policy.nextDelay delay)

/-- Up to `left` further attempts may be made, and `further` of them are. -/
structure Takes (left attempt delay : Nat) (state : σ) (further : Nat) : Prop where
  le : further ≤ left
  passing : ∀ k, k < further →
    isPassing retryable (resultFrom policy pause operation k attempt delay state).1 = true
  last : further < left →
    isPassing retryable (resultFrom policy pause operation further attempt delay state).1 = false
  ended : policy.tryFrom retryable pause operation left attempt delay state =
    (ending retryable (resultFrom policy pause operation further attempt delay state).1,
      (resultFrom policy pause operation further attempt delay state).2)
  log : ∀ before, policy.tryFrom retryable (logging pause) (logged operation) left attempt delay
      (state, before) =
    (ending retryable (resultFrom policy pause operation further attempt delay state).1,
      (resultFrom policy pause operation further attempt delay state).2,
      before ++ timelineFrom policy further attempt delay)

/-- The loop with a counter of 32 bits for the attempts that have been made. Each round raises the
counter, makes the attempt of that number, and compares it with the limit. -/
inductive Rounds : UInt32 → Nat → σ → RetryOutcome α ξ × σ → Prop
  | success {made : UInt32} {delay : Nat} {state after : σ} {value : α}
      (h : operation (made + 1).toNat state = (.ok value, after)) :
      Rounds made delay state (.success value, after)
  | permanent {made : UInt32} {delay : Nat} {state after : σ} {e : ξ}
      (h : operation (made + 1).toNat state = (.error e, after)) (hfinal : retryable e = false) :
      Rounds made delay state (.permanentFailure e, after)
  | exhausted {made : UInt32} {delay : Nat} {state after : σ} {e : ξ}
      (h : operation (made + 1).toNat state = (.error e, after)) (hpassing : retryable e = true)
      (hlimit : policy.maxAttempts ≤ made + 1) : Rounds made delay state (.failed e, after)
  | again {made : UInt32} {delay : Nat} {state after : σ} {e : ξ} {ended : RetryOutcome α ξ × σ}
      (h : operation (made + 1).toNat state = (.error e, after)) (hpassing : retryable e = true)
      (hlimit : ¬ policy.maxAttempts ≤ made + 1)
      (rest : Rounds (made + 1) (policy.nextDelay delay) (pause delay after) ended) :
      Rounds made delay state ended

end Attempts

variable {policy : RetryPolicy} {retryable : ξ → Bool} {pause : Nat → σ → σ}
  {operation : Nat → σ → Except ξ α × σ} {left attempt delay : Nat} {state : σ}

/-! ## How many attempts are made -/

theorem isPassing_of_isLast (h : IsLast retryable operation left attempt state)
    (hleft : 0 < left) : isPassing retryable (operation attempt state).1 = false := by
  rcases hattempt : operation attempt state with ⟨e | value, after⟩
  · cases hretryable : retryable e with
    | false => exact hretryable
    | true =>
        have hnone := h e after hattempt hretryable
        omega
  · rfl

variable (policy retryable pause operation) in
theorem exists_takes (left attempt delay : Nat) (state : σ) :
    ∃ further, Takes policy retryable pause operation left attempt delay state further := by
  induction left, attempt, delay, state
      using attempt_induction policy retryable pause operation with
  | last left attempt delay state hlast =>
      refine ⟨0, Nat.zero_le left, fun k hk => absurd hk (Nat.not_lt_zero k),
        isPassing_of_isLast hlast, tryFrom_eq_ending hlast, fun before => ?_⟩
      rw [tryFrom_eq_ending (hlast.congr (by rfl))]
      rfl
  | again left attempt delay state e after hfailed hretryable ih =>
      obtain ⟨further, hle, hpassing, hlast, hended, hlog⟩ := ih
      have hfirst : (operation attempt state).1 = .error e := congrArg Prod.fst hfailed
      have hafter : (operation attempt state).2 = after := congrArg Prod.snd hfailed
      have hresult (k : Nat) : resultFrom policy pause operation (k + 1) attempt delay state =
          resultFrom policy pause operation k (attempt + 1) (policy.nextDelay delay)
            (pause delay after) := by
        rw [resultFrom, hafter]
      refine ⟨further + 1, Nat.succ_le_succ hle, fun k hk => ?_, fun hmore => ?_, ?_,
        fun before => ?_⟩
      · cases k with
        | zero =>
            rw [resultFrom, hfirst]
            exact hretryable
        | succ k =>
            rw [hresult]
            exact hpassing k (Nat.lt_of_succ_lt_succ hk)
      · rw [hresult]
        exact hlast (Nat.lt_of_succ_lt_succ hmore)
      · rw [tryFrom_of_retryable hfailed hretryable, hended, hresult]
      · have hnoted : logged operation attempt (state, before) =
            (.error e, after, before ++ [.tried attempt]) := by
          rw [logged, hfirst, hafter]
        rw [tryFrom_of_retryable hnoted hretryable, logging, hlog, hresult, timelineFrom]
        simp

/-! ## The counter -/

theorem attempts_lt_size (policy : RetryPolicy) : policy.attempts < UInt32.size :=
  Nat.max_lt.mpr ⟨by decide, policy.maxAttempts.toNat_lt_size⟩

/-- Where attempts are left to be made the counter does not overflow. -/
theorem toNat_made_add_one {made : UInt32} (h : made.toNat + 1 + left = policy.attempts) :
    (made + 1).toNat = made.toNat + 1 := by
  have hsize := attempts_lt_size policy
  have hfits : made.toNat + 1 < 2 ^ 32 := by
    change policy.attempts < 2 ^ 32 at hsize
    omega
  rw [UInt32.toNat_add]
  exact Nat.mod_eq_of_lt hfits

/-- It has reached the limit when none are left. -/
theorem maxAttempts_le_iff {made : UInt32} (h : made.toNat + 1 + left = policy.attempts) :
    policy.maxAttempts ≤ made + 1 ↔ left = 0 := by
  rw [UInt32.le_iff_toNat_le, toNat_made_add_one h]
  unfold attempts at h
  omega

/-- One round, and what comes after it. -/
theorem rounds_iff {made : UInt32} {ended : RetryOutcome α ξ × σ} :
    Rounds policy retryable pause operation made delay state ended ↔
      match operation (made + 1).toNat state with
      | (.ok value, after) => ended = (.success value, after)
      | (.error e, after) =>
        if retryable e then
          if policy.maxAttempts ≤ made + 1 then ended = (.failed e, after)
          else Rounds policy retryable pause operation (made + 1) (policy.nextDelay delay)
            (pause delay after) ended
        else ended = (.permanentFailure e, after) := by
  constructor
  · intro h
    cases h with
    | success h => rw [h]
    | permanent h hfinal =>
        rw [h]
        simp [hfinal]
    | exhausted h hpassing hlimit =>
        rw [h]
        simp [hpassing, hlimit]
    | again h hpassing hlimit rest =>
        rw [h]
        dsimp only
        rwa [if_pos hpassing, if_neg hlimit]
  · rcases hattempt : operation (made + 1).toNat state with ⟨e | value, after⟩
    · dsimp only
      split
      · rename_i hpassing
        split
        · rename_i hlimit
          rintro rfl
          exact .exhausted hattempt hpassing hlimit
        · rename_i hlimit
          exact .again hattempt hpassing hlimit
      · rename_i hfinal
        rintro rfl
        exact .permanent hattempt ((Bool.not_eq_true _).mp hfinal)
    · rintro rfl
      exact .success hattempt

/-- From any round on, the loop with the counter ends as the run does. -/
theorem rounds_iff_tryFrom {made : UInt32} {ended : RetryOutcome α ξ × σ}
    (h : made.toNat + 1 + left = policy.attempts) :
    Rounds policy retryable pause operation made delay state ended ↔
      policy.tryFrom retryable pause operation left (made.toNat + 1) delay state = ended := by
  induction left generalizing made delay state with
  | zero =>
      have hlimit := (maxAttempts_le_iff h).mpr rfl
      rw [rounds_iff, toNat_made_add_one h, tryFrom]
      rcases operation (made.toNat + 1) state with ⟨e | value, after⟩
      · cases hpassing : retryable e <;> simp [hpassing, hlimit, eq_comm]
      · exact eq_comm
  | succ left ih =>
      have hlimit : ¬ policy.maxAttempts ≤ made + 1 :=
        mt (maxAttempts_le_iff h).mp (Nat.succ_ne_zero left)
      have hnumber := toNat_made_add_one h
      have hnext (after : σ) : Rounds policy retryable pause operation (made + 1)
            (policy.nextDelay delay) (pause delay after) ended ↔
          policy.tryFrom retryable pause operation left ((made + 1).toNat + 1)
            (policy.nextDelay delay) (pause delay after) = ended :=
        ih (by omega)
      rw [rounds_iff, hnumber, tryFrom]
      rcases operation (made.toNat + 1) state with ⟨e | value, after⟩
      · cases hpassing : retryable e
        · simp [hpassing, eq_comm]
        · simp [hpassing, hlimit, hnext, hnumber]
      · exact eq_comm

/-- The loop with the counter comes to an end, which is that of the run. -/
theorem rounds_iff_run {ended : RetryOutcome α ξ × σ} :
    Rounds policy retryable pause operation 0 policy.initialDelay state ended ↔
      policy.run retryable pause operation state = ended := by
  have hpositive : 1 ≤ policy.attempts := Nat.le_max_left 1 _
  have hall : (0 : UInt32).toNat + 1 + (policy.attempts - 1) = policy.attempts := by
    rw [UInt32.toNat_zero]
    omega
  exact rounds_iff_tryFrom hall

/-! ## The attempts and the pauses of a run -/

variable (policy) in
/-- The attempts are numbered on from the first. -/
theorem attempts_timelineFrom (further attempt delay : Nat) :
    (timelineFrom policy further attempt delay).filterMap Moment.attempt? =
      List.range' attempt (further + 1) := by
  induction further generalizing attempt delay with
  | zero => rfl
  | succ further ih =>
      rw [timelineFrom, List.range'_succ, ← ih (attempt + 1) (policy.nextDelay delay)]
      rfl

variable (policy) in
/-- There is one pause fewer, and each is computed from the one before. -/
theorem delays_timelineFrom (further attempt delay : Nat) :
    (timelineFrom policy further attempt delay).filterMap Moment.delay? =
      List.iterate policy.nextDelay delay further := by
  induction further generalizing attempt delay with
  | zero => rfl
  | succ further ih =>
      rw [timelineFrom, List.iterate, ← ih (attempt + 1) (policy.nextDelay delay)]
      rfl

/-- What attempt number `n` answers, and the state it leaves, if each of those before it is followed
by a pause and by another attempt. -/
def result (policy : RetryPolicy) (pause : Nat → σ → σ) (operation : Nat → σ → Except ξ α × σ)
    (state : σ) (n : Nat) : Except ξ α × σ :=
  resultFrom policy pause operation (n - 1) 1 policy.initialDelay state

/-- Of attempts with these answers, up to `limit` of them, this is the first that succeeds or fails
for good, or else the last. -/
structure StopsAt (retryable : ξ → Bool) (limit : Nat) (answer : Nat → Except ξ α) (m : Nat) :
    Prop where
  pos : 1 ≤ m
  le : m ≤ limit
  passing : ∀ n, 1 ≤ n → n < m → isPassing retryable (answer n) = true
  last : m < limit → isPassing retryable (answer m) = false

theorem StopsAt.unique {limit m k : Nat} {answer : Nat → Except ξ α}
    (hm : StopsAt retryable limit answer m) (hk : StopsAt retryable limit answer k) : m = k := by
  rcases Nat.lt_trichotomy m k with hlt | heq | hgt
  · have hlast := hm.last (Nat.lt_of_lt_of_le hlt hk.le)
    rw [hk.passing m hm.pos hlt] at hlast
    cases hlast
  · exact heq
  · have hlast := hk.last (Nat.lt_of_lt_of_le hgt hm.le)
    rw [hm.passing k hk.pos hgt] at hlast
    cases hlast

variable (policy retryable pause operation) in
/-- A run stops where the answers say, and the last attempt decides. -/
theorem exists_stopsAt (state : σ) :
    ∃ m, StopsAt retryable policy.attempts
        (fun n => (result policy pause operation state n).1) m ∧
      policy.run retryable pause operation state =
        (ending retryable (result policy pause operation state m).1,
          (result policy pause operation state m).2) ∧
      policy.run retryable (logging pause) (logged operation) (state, []) =
        (ending retryable (result policy pause operation state m).1,
          (result policy pause operation state m).2,
          timelineFrom policy (m - 1) 1 policy.initialDelay) := by
  have hpositive : 1 ≤ policy.attempts := Nat.le_max_left 1 _
  obtain ⟨further, h⟩ := exists_takes policy retryable pause operation (policy.attempts - 1) 1
    policy.initialDelay state
  have hle := h.le
  have hstops : StopsAt retryable policy.attempts
      (fun n => (result policy pause operation state n).1) (further + 1) :=
    { pos := Nat.succ_pos further
      le := by omega
      passing := fun n hn hlt => h.passing (n - 1) (by omega)
      last := fun hlt => h.last (by omega) }
  exact ⟨further + 1, hstops, h.ended, h.log []⟩

/-- When every error is worth another attempt none is final. -/
theorem ending_ne_permanentFailure (answer : Except ξ α) (e : ξ) :
    ending (fun _ => true) answer ≠ .permanentFailure e := by
  cases answer <;> simp [ending]

/-- An error that will not pass, after others that may have, is the end of it. -/
theorem run_isTransient_of_first {operation : Nat → σ → Except Error α × σ} {n : Nat} {e : Error}
    (hpos : 1 ≤ n) (hle : n ≤ policy.attempts)
    (hbefore : ∀ k, 1 ≤ k → k < n → ∃ cause,
      (result policy pause operation state k).1 = .error cause ∧ cause.isTransient = true)
    (hfailed : (result policy pause operation state n).1 = .error e)
    (hfinal : e.isTransient = false) :
    policy.run Error.isTransient pause operation state =
        (.permanentFailure e, (result policy pause operation state n).2) ∧
      (policy.run Error.isTransient (logging pause) (logged operation) (state, [])).2.2 =
        timelineFrom policy (n - 1) 1 policy.initialDelay := by
  have hhere : StopsAt Error.isTransient policy.attempts
      (fun n => (result policy pause operation state n).1) n :=
    { pos := hpos
      le := hle
      passing := fun k hk hlt => by
        obtain ⟨cause, hcause, htransient⟩ := hbefore k hk hlt
        rw [hcause]
        exact htransient
      last := fun _ => by
        rw [hfailed]
        exact hfinal }
  obtain ⟨m, hstops, hended, hlog⟩ := exists_stopsAt policy Error.isTransient pause operation state
  obtain rfl := hstops.unique hhere
  rw [hended, hlog, hfailed, ending, if_neg (by simp [hfinal])]
  exact ⟨rfl, rfl⟩

/-- A run makes its attempts in order, from the first up to the one where the answers say that it
stops. Between any two of them it pauses once, for the initial delay at first and then for what
`nextDelay` makes of the pause before, and it ends as the last attempt does. The loop with the
counter of 32 bits comes to that same end. If all errors are worth another attempt no failure is
final, and if only those are that may pass, the first other one is. -/
theorem run_round_by_round (policy : RetryPolicy) (retryable : ξ → Bool) (pause : Nat → σ → σ)
    (operation : Nat → σ → Except ξ α × σ) (state : σ) :
    let limit := max 1 policy.maxAttempts.toNat
    let attempt := result policy pause operation state
    (∃ m, StopsAt retryable limit (fun n => (attempt n).1) m ∧ m < UInt32.size ∧
      policy.run retryable pause operation state =
        (ending retryable (attempt m).1, (attempt m).2) ∧
      ∃ timeline, timeline = timelineFrom policy (m - 1) 1 policy.initialDelay ∧
        policy.run retryable (logging pause) (logged operation) (state, []) =
          (ending retryable (attempt m).1, (attempt m).2, timeline) ∧
        timeline.filterMap Moment.attempt? = List.range' 1 m ∧
        timeline.filterMap Moment.delay? =
          List.iterate policy.nextDelay policy.initialDelay (m - 1)) ∧
    (∀ ended, Rounds policy retryable pause operation 0 policy.initialDelay state ended ↔
      policy.run retryable pause operation state = ended) ∧
    (∀ e, (policy.run (fun _ => true) pause operation state).1 ≠ .permanentFailure e) ∧
    ∀ (operation : Nat → σ → Except Error α × σ) (n : Nat) (e : Error), 1 ≤ n → n ≤ limit →
      (∀ k, 1 ≤ k → k < n → ∃ cause,
        (result policy pause operation state k).1 = .error cause ∧
          ((∃ stream expected actual, cause = .conflict stream expected actual) ∨
            ∃ words, cause = .unavailable words)) →
      (result policy pause operation state n).1 = .error e →
      (∀ stream expected actual, e ≠ .conflict stream expected actual) →
      (∀ words, e ≠ .unavailable words) →
      policy.run Error.isTransient pause operation state =
          (.permanentFailure e, (result policy pause operation state n).2) ∧
        (policy.run Error.isTransient (logging pause) (logged operation) (state, [])).2.2 =
          timelineFrom policy (n - 1) 1 policy.initialDelay := by
  intro limit attempt
  refine ⟨?_, fun ended => rounds_iff_run, fun e => ?_, ?_⟩
  · obtain ⟨m, hstops, hended, hlog⟩ :=
      exists_stopsAt policy retryable pause operation state
    have hcount : m - 1 + 1 = m := Nat.sub_add_cancel hstops.pos
    refine ⟨m, hstops, Nat.lt_of_le_of_lt hstops.le (attempts_lt_size policy), hended, _, rfl, hlog,
      ?_, delays_timelineFrom policy _ _ _⟩
    rw [attempts_timelineFrom, hcount]
  · obtain ⟨m, -, hended, -⟩ := exists_stopsAt policy (fun _ => true) pause operation state
    rw [hended]
    exact ending_ne_permanentFailure _ e
  · intro operation n e hpos hle hbefore hfailed hconflict hunavailable
    have hfinal : e.isTransient = false := by
      rw [← Bool.not_eq_true, Error.isTransient_iff]
      rintro (⟨stream, expected, actual, rfl⟩ | ⟨words, rfl⟩)
      · exact hconflict stream expected actual rfl
      · exact hunavailable words rfl
    refine run_isTransient_of_first hpos hle (fun k hk hlt => ?_) hfailed hfinal
    obtain ⟨cause, hcause, htransient⟩ := hbefore k hk hlt
    exact ⟨cause, hcause, Error.isTransient_iff.mpr htransient⟩

/-- Two conflicts are tried again, and a refusal is not, however many attempts are left. -/
theorem run_round_by_round_refused_third :
    let policy : RetryPolicy := ⟨4294967295, 10, 50, 2.0⟩
    let idle : Nat → Unit → Unit := fun _ _ => ()
    let operation : Nat → Unit → Except Error Nat × Unit := fun attempt _ =>
      (if attempt < 3 then .error (.conflict "orders" (some 0) attempt)
        else .error (.validation "no customer"), ())
    policy.run Error.isTransient idle operation () =
        (.permanentFailure (.validation "no customer"), ()) ∧
      (policy.run Error.isTransient (logging idle) (logged operation) ((), [])).2.2 =
        timelineFrom policy 2 1 10 := by
  intro policy idle operation
  obtain ⟨-, -, -, hstop⟩ := run_round_by_round policy Error.isTransient idle operation ()
  refine hstop operation 3 (.validation "no customer") (by decide) (by decide) ?_ rfl
    (fun _ _ _ h => by cases h) (fun _ h => by cases h)
  intro k hpos hlt
  obtain rfl | rfl : k = 1 ∨ k = 2 := by omega
  · exact ⟨_, rfl, .inl ⟨_, _, _, rfl⟩⟩
  · exact ⟨_, rfl, .inl ⟨_, _, _, rfl⟩⟩

end RetryPolicy

end EventLog
