/-
# One command, in any state

A history may have been written by anyone, so an order can be in states that no sequence of
commands leads to: shipped without a tracking number, or delivered without items. What a
command does is settled in these as well.

Two definitions say it without the guards of the code. `OrderState.Accepts` lists what each
command asks of the status and of its own arguments, and `OrderCommand.event` is the event that
a command becomes, which does not depend on the state at all. A command is refused or has
exactly the effect of its event (`Order.command_step`), and what is accepted is the table and
nothing else. An order can be cancelled in every status that is not final, and this alone is why
the final statuses are those in which nothing is accepted.
-/

import EventLog.Proofs.Order.Lifecycle

namespace EventLog

namespace OrderCommand

/-- The event that the command becomes if it is accepted at time `now`. -/
def event (now : Timestamp) : OrderCommand → OrderEvent
  | create customerId items => .created ⟨customerId, items⟩
  | updateItems items reason => .itemsUpdated ⟨items, reason⟩
  | confirm => .confirmed ⟨now⟩
  | ship trackingNumber carrier => .shipped ⟨trackingNumber, carrier, now⟩
  | deliver signature => .delivered ⟨now, signature⟩
  | cancel reason cancelledBy => .cancelled ⟨reason, cancelledBy⟩

end OrderCommand

namespace OrderState

instance (items : List OrderItem) : Decidable (Orderable items) :=
  inferInstanceAs (Decidable (items ≠ [] ∧ ∀ item ∈ items, 0 < item.quantity.toInt))

/-- What each command asks of the status and of its arguments. -/
def Accepts (s : OrderState) : OrderCommand → Prop
  | .create _ items => s.status = none ∧ Orderable items
  | .updateItems items _ => s.status = some .created ∧ Orderable items
  | .confirm => s.status = some .created
  | .ship trackingNumber _ =>
    s.status = some .confirmed ∧ Text.trim trackingNumber.toList ≠ []
  | .deliver _ => s.status = some .shipped
  | .cancel _ _ =>
    s.status = some .created ∨ s.status = some .confirmed ∨ s.status = some .shipped

instance (s : OrderState) : DecidablePred s.Accepts
  | .create _ items => inferInstanceAs (Decidable (s.status = none ∧ Orderable items))
  | .updateItems items _ =>
    inferInstanceAs (Decidable (s.status = some .created ∧ Orderable items))
  | .confirm => inferInstanceAs (Decidable (s.status = some .created))
  | .ship trackingNumber _ => inferInstanceAs
    (Decidable (s.status = some .confirmed ∧ Text.trim trackingNumber.toList ≠ []))
  | .deliver _ => inferInstanceAs (Decidable (s.status = some .shipped))
  | .cancel _ _ => inferInstanceAs (Decidable
    (s.status = some .created ∨ s.status = some .confirmed ∨ s.status = some .shipped))

variable {s : OrderState} {now : Timestamp} {command : OrderCommand} {e : OrderEvent}

/-- The statuses that an order can be cancelled in are those that are not final. -/
theorem open_iff {status : Option OrderStatus} :
    (status = some .created ∨ status = some .confirmed ∨ status = some .shipped) ↔
      ∃ current, status = some current ∧ current.isFinal = false := by
  constructor
  · rintro (rfl | rfl | rfl) <;> exact ⟨_, rfl, rfl⟩
  · rintro ⟨current, rfl, hopen⟩
    cases current with
    | created => exact .inl rfl
    | confirmed => exact .inr (.inl rfl)
    | shipped => exact .inr (.inr rfl)
    | delivered => cases hopen
    | cancelled => cases hopen

/-- A command is decided for what the table lists, and becomes its event. -/
theorem decision_iff :
    s.Decision now command e ↔ s.Accepts command ∧ e = command.event now := by
  constructor
  · intro h
    cases h with
    | created hstatus hitems => exact ⟨⟨hstatus, hitems⟩, rfl⟩
    | itemsUpdated hstatus hitems => exact ⟨⟨hstatus, hitems⟩, rfl⟩
    | confirmed hstatus => exact ⟨hstatus, rfl⟩
    | shipped hstatus hblank => exact ⟨⟨hstatus, Text.trim_ne_nil_iff.mpr hblank⟩, rfl⟩
    | delivered hstatus => exact ⟨hstatus, rfl⟩
    | cancelled hstatus hopen => exact ⟨open_iff.mpr ⟨_, hstatus, hopen⟩, rfl⟩
  · rintro ⟨haccepts, rfl⟩
    cases command with
    | create customerId items => exact .created haccepts.1 haccepts.2
    | updateItems items reason => exact .itemsUpdated haccepts.1 haccepts.2
    | confirm => exact .confirmed haccepts
    | ship trackingNumber carrier => exact .shipped haccepts.1 (Text.trim_ne_nil_iff.mp haccepts.2)
    | deliver signature => exact .delivered haccepts
    | cancel reason cancelledBy =>
        obtain ⟨status, hstatus, hopen⟩ := open_iff.mp haccepts
        exact .cancelled hstatus hopen

/-- Nothing is accepted in a final status, and in any other at least a cancellation is. -/
theorem isFinal_iff_not_accepts {status : OrderStatus} (hstatus : s.status = some status) :
    status.isFinal = true ↔ ∀ command, ¬ s.Accepts command := by
  constructor
  · intro hfinal command haccepts
    have hdecision : s.Decision .epoch command _ := decision_iff.mpr ⟨haccepts, rfl⟩
    rw [hdecision.isFinal_eq_false hstatus] at hfinal
    cases hfinal
  · intro hnone
    by_contra hopen
    exact hnone (.cancel none none) (open_iff.mpr ⟨status, hstatus, by simpa using hopen⟩)

end OrderState

namespace Order

variable {ε : Type} [EventType ε] [Includes OrderEvent ε]

/-- What is accepted is handled, and leaves one pending change that has had its effect. -/
theorem handle_of_accepts {order : Order ε} {command : OrderCommand}
    (h : order.state.Accepts command) (now : Timestamp) :
    handle now command order = .ok ⟨order.id, order.originalVersion, order.currentVersion + 1,
      order.changes ++ [change order.id (command.event now)],
      order.state.apply (command.event now)⟩ :=
  handle_eq_ok_iff.mpr ⟨_, OrderState.decide_eq_ok_iff.mpr (OrderState.decision_iff.mpr ⟨h, rfl⟩),
    rfl⟩

/-- What is not accepted is refused for a reason of the domain. -/
theorem exists_handle_of_not_accepts {order : Order ε} {command : OrderCommand}
    (h : ¬ order.state.Accepts command) (now : Timestamp) :
    ∃ e : OrderError, handle now command order = .error (.validation e.message) := by
  unfold handle
  cases hdecided : order.state.decide now command with
  | error e => exact ⟨e, rfl⟩
  | ok event =>
      have hdecision := OrderState.decide_eq_ok_iff.mp hdecided
      exact absurd (OrderState.decision_iff.mp hdecision).1 h

/-- Whatever an order is like, and however it came to be so, a command is refused or carried
out. If it is refused, that is for a reason of the domain, and the order is what it was. If it
is carried out, the order has one more pending change, which belongs to it and holds what the
command said; its current version is one higher, the version it rests on is the same, and
otherwise it is what applying that change makes of it. A command is carried out exactly if it is
accepted, and in a status nothing is carried out exactly if the status is final. -/
theorem command_step (order : Order ε) (now : Timestamp) (command : OrderCommand) :
    let outcome := handle now command order
    let after := order.offer (now, command)
    let raised : Envelope ε := .fresh order.id (.typed (Includes.inject (command.event now)))
    ((∃ e : OrderError, outcome = .error (.validation e.message)) ∧ after = order ∨
      outcome = .ok after ∧ order.apply (aggregateType ε) raised true = .ok after ∧
        after.changes = order.changes ++ [raised] ∧ raised.aggregateId = order.id ∧
        after.id = order.id ∧ after.originalVersion = order.originalVersion ∧
        after.currentVersion = order.currentVersion + 1 ∧
        after.state = order.state.apply (command.event now)) ∧
    ((∃ carriedOut, outcome = .ok carriedOut) ↔ order.state.Accepts command) ∧
    ∀ status, order.state.status = some status →
      (status.isFinal = true ↔ ∀ time any, ∃ e, handle time any order = .error e) := by
  intro outcome after raised
  refine ⟨?step, ?accepted, ?final⟩
  case step =>
    by_cases haccepts : order.state.Accepts command
    · have hhandle := handle_of_accepts haccepts now
      have hafter : after = _ := offer_of_ok hhandle
      refine .inr ⟨hhandle.trans (congrArg _ hafter.symm), ?_⟩
      rw [hafter]
      exact ⟨apply_change order order.id (command.event now), rfl, rfl, rfl, rfl, rfl, rfl⟩
    · obtain ⟨e, hhandle⟩ := exists_handle_of_not_accepts haccepts now
      exact .inl ⟨⟨e, hhandle⟩, offer_of_error hhandle⟩
  case accepted =>
    constructor
    · rintro ⟨carriedOut, hok⟩
      by_contra haccepts
      obtain ⟨e, hhandle⟩ := exists_handle_of_not_accepts haccepts now
      exact absurd (hok.symm.trans hhandle) (by simp)
    · exact fun haccepts => ⟨_, handle_of_accepts haccepts now⟩
  case final =>
    intro status hstatus
    rw [OrderState.isFinal_iff_not_accepts hstatus]
    constructor
    · intro hnone time any
      obtain ⟨e, hhandle⟩ := exists_handle_of_not_accepts (hnone any) time
      exact ⟨_, hhandle⟩
    · intro hrefused any haccepts
      obtain ⟨e, hhandle⟩ := hrefused now any
      rw [handle_of_accepts haccepts now] at hhandle
      cases hhandle

/-- An order that was delivered without ever having been created refuses everything. -/
theorem command_step_delivered :
    let order : Order OrderEvent :=
      ⟨"7", 1, 1, [], OrderState.initial.apply (.delivered ⟨.epoch, none⟩)⟩
    order.state.status = some .delivered ∧
      ∀ time any, ∃ e, handle time any order = .error e := by
  intro order
  obtain ⟨-, -, hfinal⟩ := command_step order .epoch .confirm
  exact ⟨rfl, (hfinal .delivered rfl).mp rfl⟩

/-- An order that was shipped without ever having been created can still be delivered or
cancelled, and nothing else. -/
example :
    let s := OrderState.initial.apply (.shipped ⟨"", "", .epoch⟩)
    ([.create .nil [⟨.nil, 1⟩], .updateItems [⟨.nil, 1⟩] none, .confirm, .ship "T-1" "post",
      .deliver none, .cancel none none] : List OrderCommand).map (fun c => decide (s.Accepts c)) =
        [false, false, false, false, true, true] := by
  decide

end Order

end EventLog
