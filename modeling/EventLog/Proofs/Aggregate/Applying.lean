/-
# Applying envelopes

Commands and history reach the state of an aggregate in one way: an envelope is applied to it.
What else happens is bookkeeping, and it depends on where the envelope comes from. A fresh event
becomes a pending change and raises the current version; one of the history moves both versions
and leaves the pending changes alone.

Each of these steps has one equation here that says when it succeeds and what it returns. Runs of
them are taken apart by these equations.
-/

import EventLog.Aggregate.Basic
import EventLog.Proofs.Except

namespace EventLog.Aggregate

variable {ε σ : Type} [EventType ε] {type : AggregateType ε σ} {a b : Aggregate ε σ}
  {envelope : Envelope ε}

theorem apply_eq_ok_iff {isNew : Bool} :
    a.apply type envelope isNew = .ok b ↔
      ∃ state, type.transitions.apply envelope.event a.state = .ok state ∧
        b = if isNew then ⟨a.id, a.originalVersion, a.currentVersion + 1,
          a.changes ++ [envelope], state⟩ else { a with state } := by
  rw [apply]
  cases type.transitions.apply envelope.event a.state with
  | error e => simp
  | ok state => cases isNew <;> simp [eq_comm]

/-- A fresh event is pending once it has been applied. -/
theorem raise_eq_ok_iff {event : ε} :
    a.raise type event = .ok b ↔
      ∃ state, type.transitions.apply (.typed event) a.state = .ok state ∧
        b = ⟨a.id, a.originalVersion, a.currentVersion + 1,
          a.changes ++ [.fresh a.id (.typed event)], state⟩ :=
  apply_eq_ok_iff

/-- Applied history brings the versions together and leaves what is pending alone. -/
theorem replayOne_eq_ok_iff :
    a.replayOne type envelope = .ok b ↔
      ∃ state, type.transitions.apply envelope.event a.state = .ok state ∧
        b = ⟨a.id, a.currentVersion + 1, a.currentVersion + 1, a.changes, state⟩ := by
  rw [replayOne, apply]
  cases type.transitions.apply envelope.event a.state with
  | error e => simp [Except.map]
  | ok state => simp [Except.map, eq_comm]

/-- Replayed history goes on where its first envelope is applied. -/
theorem rebuild_cons_eq_ok_iff {rest : List (Envelope ε)} :
    a.rebuild type (envelope :: rest) = (.ok (), b) ↔
      ∃ next, type.transitions.apply envelope.event a.state = .ok next ∧
        Aggregate.rebuild type ⟨a.id, a.currentVersion + 1, a.currentVersion + 1, a.changes, next⟩
          rest = (.ok (), b) := by
  rw [rebuild, replayOne, apply]
  cases type.transitions.apply envelope.event a.state with
  | error e => simp [Except.map]
  | ok next => simp [Except.map]

/-- Events that were raised are pending, in order, and the aggregate rests on what it rested
on before. -/
theorem of_foldlM_raise {events : List ε} (h : events.foldlM (raise type) a = .ok b) :
    b.id = a.id ∧ b.originalVersion = a.originalVersion ∧
      b.changes = a.changes ++ events.map fun e => .fresh a.id (.typed e) := by
  induction events generalizing a with
  | nil =>
      cases h
      exact ⟨rfl, rfl, (List.append_nil _).symm⟩
  | cons e rest ih =>
      rw [List.foldlM_cons] at h
      obtain ⟨next, hnext, h⟩ := Except.bind_eq_ok_iff.mp h
      obtain ⟨state, -, rfl⟩ := raise_eq_ok_iff.mp hnext
      obtain ⟨hid, horiginal, hchanges⟩ := ih h
      refine ⟨hid, horiginal, hchanges.trans ?_⟩
      simp

end EventLog.Aggregate
