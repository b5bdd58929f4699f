/-
# Rollbacks that are refused

`Program.follow` takes every rollback to be carried out, as `Server` does. Here a rollback
may be refused, and a conversation is compared with the one in which it is not.

The work inside a transaction sends statements only; it is `settle` that rolls back, and it
looks at the reply only if the work was abandoned. So the comparison needs nothing but how
the work can end, which `Program.AllAnswers` says for all replies at once: the work of a
write with nothing to write never ends in a commit, and every other work never ends in
anything else. A refusal is therefore the answer of a write that had nothing to write and
was about to succeed, and no other conversation is changed by it.
-/

import EventLog.Proofs.Postgres.Discipline

namespace EventLog.Postgres

namespace Program

variable {α β : Type}

/-! ## How a program can end -/

/-- Whatever the replies are, nothing but statements is sent, and an answer that is no
failure has this property. -/
def AllAnswers (P : α → Prop) : Program α → Prop
  | done (.ok a) => P a
  | done (.error _) => True
  | send _ next => ∀ reply, (next reply).AllAnswers P
  | rollback _ => False

/-- A program ends well if what follows does after every answer of what comes first. -/
theorem AllAnswers.bind {P : α → Prop} {Q : β → Prop} {p : Program α} {f : α → Program β}
    (h : p.AllAnswers P) (hnext : ∀ a, P a → (f a).AllAnswers Q) : (p >>= f).AllAnswers Q := by
  induction p with
  | done answer =>
      cases answer with
      | error e => trivial
      | ok a => exact hnext a h
  | send statement next ih => exact fun reply => ih reply (h reply)
  | rollback next => exact h

theorem allAnswers_ask (statement : Statement) (explain : Failure → Error)
    (value : Table → Except Failure α) :
    (ask statement explain value).AllAnswers fun _ => True := by
  intro reply
  cases reply with
  | failed failure => trivial
  | table rows =>
      dsimp only
      cases value rows <;> trivial

/-! ## A transaction whose rollback is refused -/

/-- What becomes of a conversation if its rollback is refused: an answer is withdrawn, and the
transaction is given up once more. -/
def Transcript.refused (failure : Failure) (t : Transcript α) : Transcript α :=
  match t.answer with
  | .ok _ => ⟨t.sent ++ [.rollback], .error failure.toError, t.unused⟩
  | .error _ => t

/-- A statement that has been sent before does not matter to that. -/
theorem Transcript.refused_cons (failure : Failure) (step : Sent) (t : Transcript α) :
    { t with sent := step :: t.sent }.refused failure =
      { t.refused failure with sent := step :: (t.refused failure).sent } := by
  obtain ⟨sent, answer, unused⟩ := t
  cases answer <;> rfl

/-- Work that can only end in a commit is rolled back after a failure only. -/
theorem followWith_settle_of_commit {work : Program (Verdict α)}
    (h : work.AllAnswers fun verdict => ∃ a, verdict = .commit a) (rolledBack : Reply)
    (replies : List Reply) :
    (settle work).followWith rolledBack replies = (settle work).follow replies := by
  induction work generalizing replies with
  | done answer =>
      cases answer with
      | error e => rfl
      | ok verdict =>
          obtain ⟨a, rfl⟩ := h
          rw [settle, follow, followWith_send, followWith_send]
          cases replies.headD (.table .none) <;> rfl
  | send statement next ih =>
      rw [settle, follow, followWith_send, followWith_send, ih _ (h _)]
      rfl
  | rollback next => exact h.elim

/-- Work that can only be abandoned is answered with the refusal if it does not fail. -/
theorem followWith_settle_of_abandon {work : Program (Verdict α)}
    (h : work.AllAnswers fun verdict => ∃ a, verdict = .abandon a) (failure : Failure)
    (replies : List Reply) :
    (settle work).followWith (.failed failure) replies =
      ((settle work).follow replies).refused failure := by
  induction work generalizing replies with
  | done answer =>
      cases answer with
      | error e => rfl
      | ok verdict =>
          obtain ⟨a, rfl⟩ := h
          rfl
  | send statement next ih =>
      rw [settle, follow, followWith_send, followWith_send, ih _ (h _), Transcript.refused_cons]
      rfl
  | rollback next => exact h.elim

theorem followWith_transaction_of_commit {work : Program (Verdict α)}
    (h : work.AllAnswers fun verdict => ∃ a, verdict = .commit a) (rolledBack : Reply)
    (replies : List Reply) :
    (transaction work).followWith rolledBack replies = (transaction work).follow replies := by
  rw [transaction, follow, followWith_send, followWith_send]
  cases replies.headD (.table .none) with
  | failed failure => rfl
  | table rows =>
      dsimp only
      rw [followWith_settle_of_commit h]
      rfl

theorem followWith_transaction_of_abandon {work : Program (Verdict α)}
    (h : work.AllAnswers fun verdict => ∃ a, verdict = .abandon a) (failure : Failure)
    (replies : List Reply) :
    (transaction work).followWith (.failed failure) replies =
      ((transaction work).follow replies).refused failure := by
  rw [transaction, follow, followWith_send, followWith_send]
  cases replies.headD (.table .none) with
  | failed failure => rfl
  | table rows =>
      dsimp only
      rw [followWith_settle_of_abandon h, Transcript.refused_cons]
      rfl

end Program

/-! ## How the work of a write can end -/

theorem allAnswers_lockHead (stream : String) (expected : Option Int) :
    (lockHead stream expected).AllAnswers fun _ => True := by
  rw [lockHead, Program.execute_eq_ask, Program.fetchOne_lockHead_eq_ask]
  apply (Program.allAnswers_ask _ _ _).bind
  intro _ _
  apply (Program.allAnswers_ask _ _ _).bind
  intro current _
  cases expected with
  | none => trivial
  | some version =>
      dsimp only
      split <;> trivial

theorem allAnswers_insertMembers (stream : String) (current : Int) (ids : List Uuid) :
    (insertMembers stream current ids).AllAnswers fun _ => True := by
  rw [insertMembers, Program.fetchAll_eq_ask, Program.execute_eq_ask]
  apply (Program.allAnswers_ask _ _ _).bind
  intro places _
  exact (Program.allAnswers_ask _ _ _).bind fun _ _ => trivial

variable {ε : Type} [EventType ε]

/-- Preparing an empty batch leaves nothing to write. -/
theorem allAnswers_appendPrepared_nil (draw : Draw) (stream : String) (expected : Option Int) :
    (appendPrepared draw stream ([] : List (Staged ε)) expected).AllAnswers
      fun verdict => ∃ a, verdict = .abandon a :=
  (allAnswers_lockHead stream expected).bind fun _ _ => ⟨_, rfl⟩

theorem allAnswers_appendPrepared {staged : List (Staged ε)} (h : staged ≠ []) (draw : Draw)
    (stream : String) (expected : Option Int) :
    (appendPrepared draw stream staged expected).AllAnswers
      fun verdict => ∃ a, verdict = .commit a := by
  apply (allAnswers_lockHead stream expected).bind
  intro current _
  rw [if_neg (fun hempty => h (List.isEmpty_iff.mp hempty)), Program.execute_eq_ask]
  apply (Program.allAnswers_ask _ _ _).bind
  intro _ _
  exact (allAnswers_insertMembers _ _ _).bind fun _ _ => ⟨_, rfl⟩

/-! ## The three writes -/

variable (failure : Failure) (replies : List Reply)

/-- Only an append of nothing is answered with the refusal of a rollback, and only if it would
have been answered otherwise. -/
theorem followWith_append (draw : Draw) (stream : String) (batch : List (Envelope ε))
    (expected : Option Int) :
    (batch = [] → (append draw stream batch expected).followWith (.failed failure) replies =
      ((append draw stream batch expected).follow replies).refused failure) ∧
    (batch ≠ [] → (append draw stream batch expected).followWith (.failed failure) replies =
      (append draw stream batch expected).follow replies) := by
  by_cases hrefused : ∃ e, AppendRefused stream batch e
  · -- Nothing is sent, so nothing is rolled back.
    obtain ⟨e, hrefused⟩ := hrefused
    have happend := append_of_refused draw hrefused expected
    rw [happend]
    exact ⟨fun _ => rfl, fun _ => rfl⟩
  obtain ⟨hstream, staged, hstaged⟩ :=
    exists_staged_of_not_refused draw (not_exists.mp hrefused)
  have hlength := Staged.length_of_ofEnvelopes hstaged
  rw [append_eq hstream hstaged]
  constructor
  · rintro rfl
    obtain rfl := List.eq_nil_of_length_eq_zero hlength
    exact Program.followWith_transaction_of_abandon
      (allAnswers_appendPrepared_nil draw stream expected) failure replies
  · intro hbatch
    have hne : staged ≠ [] := by
      rintro rfl
      exact hbatch (List.eq_nil_of_length_eq_zero hlength.symm)
    exact Program.followWith_transaction_of_commit
      (allAnswers_appendPrepared hne draw stream expected) _ replies

/-- The same holds of linking. -/
theorem followWith_link (stream : String) (ids : List Uuid) (expected : Option Int) :
    (ids = [] → (link stream ids expected).followWith (.failed failure) replies =
      ((link stream ids expected).follow replies).refused failure) ∧
    (ids ≠ [] → (link stream ids expected).followWith (.failed failure) replies =
      (link stream ids expected).follow replies) := by
  rw [link, requireStreamId]
  by_cases hstream : stream = ""
  · rw [if_pos hstream]
    exact ⟨fun _ => rfl, fun _ => rfl⟩
  rw [if_neg hstream]
  constructor
  · rintro rfl
    refine Program.followWith_transaction_of_abandon ?_ failure replies
    rw [Program.fetchAll_eq_ask]
    apply (Program.allAnswers_ask _ _ _).bind
    intro known _
    exact (allAnswers_lockHead stream expected).bind fun current _ => ⟨_, rfl⟩
  · intro hids
    refine Program.followWith_transaction_of_commit ?_ _ replies
    rw [Program.fetchAll_eq_ask]
    apply (Program.allAnswers_ask _ _ _).bind
    intro known _
    cases ids.find? fun id => !known.contains id with
    | some missing => trivial
    | none =>
        apply (allAnswers_lockHead stream expected).bind
        intro current _
        rw [if_neg (fun hempty => hids (List.isEmpty_iff.mp hempty))]
        exact (allAnswers_insertMembers _ _ _).bind fun _ _ => ⟨_, rfl⟩

/-- A deletion always has something to carry out. -/
theorem followWith_delete (stream : String) (rolledBack : Reply) :
    (delete stream).followWith rolledBack replies = (delete stream).follow replies := by
  rw [delete, requireStreamId]
  by_cases hstream : stream = ""
  · rw [if_pos hstream]
    rfl
  rw [if_neg hstream]
  refine Program.followWith_transaction_of_commit ?_ rolledBack replies
  rw [Program.execute_eq_ask, Program.execute_eq_ask]
  apply (Program.allAnswers_ask _ _ _).bind
  intro _ _
  exact (Program.allAnswers_ask _ _ _).bind fun _ _ => ⟨_, rfl⟩

end EventLog.Postgres
