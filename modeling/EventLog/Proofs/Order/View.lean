/-
# The order view keeps step with orders

The view is a second state machine over the same events: it has its own effects, ignores
what an order remembers and no summary shows, and passes over an event whose version it has
seen. This module compares the two for one order and one event at a time.

`OrderSummary.ofState?` is the summary that an order in some state ought to have. An event
that is decided on that state takes the summary to the one of the next state
(`OrderSummary.next?_ofState?`). Of the events themselves only one thing matters for this:
an order is created exactly where there is none (`OrderState.creates_of_decide`).

What is published reaches the view through the bus, among other handlers that react in their
own way and may subscribe further ones. `OrderView.get?_publish` says that nothing is left of
this but one event handed to the view: being called twice with it changes nothing more.
-/

import EventLog.Order.Summary
import EventLog.Proofs.Bus
import EventLog.Proofs.Order.Decision
import EventLog.Proofs.Repository.InMemory

namespace EventLog

/-! ## One event, one summary -/

namespace OrderSummary

/-- What becomes of an order's summary, if there is one, by an event of the order. -/
def next? (orderId : String) (version : Int) :
    Option OrderEvent → Option OrderSummary → Option OrderSummary
  | some (.created event), none => some (ofCreated orderId version event)
  | some (.created _), some summary => some summary
  | event, before => before.map fun summary => summary.advance version event

theorem advance_of_le {summary : OrderSummary} {version : Int} (h : version ≤ summary.version)
    (event : Option OrderEvent) : summary.advance version event = summary := by
  rw [advance, if_pos h]

theorem le_version_advance (summary : OrderSummary) (version : Int) (event : Option OrderEvent) :
    version ≤ (summary.advance version event).version := by
  by_cases hpassed : version ≤ summary.version
  · rw [advance_of_le hpassed]
    exact hpassed
  · rw [advance, if_neg hpassed]
    cases event with
    | none => exact Int.le_refl _
    | some event => cases event <;> exact Int.le_refl _

/-- An event that is followed twice has been followed once. -/
theorem advance_advance (summary : OrderSummary) (version : Int) (event : Option OrderEvent) :
    (summary.advance version event).advance version event = summary.advance version event :=
  advance_of_le (le_version_advance summary version event) event

theorem next?_next? (orderId : String) (version : Int) (event : Option OrderEvent)
    (before : Option OrderSummary) :
    next? orderId version event (next? orderId version event before) =
      next? orderId version event before := by
  cases before with
  | none =>
      cases event with
      | none => rfl
      | some event => cases event <;> rfl
  | some summary =>
      cases event with
      | none => exact congrArg some (summary.advance_advance version none)
      | some event =>
          cases event with
          | created event => rfl
          | _ => exact congrArg some (summary.advance_advance version _)

end OrderSummary

namespace OrderView

variable {ε : Type} [EventType ε] [Includes OrderEvent ε]

omit [EventType ε] [Includes OrderEvent ε] in
/-- Moving one summary on leaves the others alone. -/
theorem get?_advance (view : OrderView) (orderId : String) (version : Int)
    (event : Option OrderEvent) (id : String) :
    (match view.get? orderId with
      | some summary => OrderView.mk (view.summaries.insert orderId (summary.advance version event))
      | none => view).get? id =
      if orderId = id then (view.get? id).map fun summary => summary.advance version event
      else view.get? id := by
  by_cases hid : orderId = id
  · subst hid
    rw [if_pos rfl]
    cases hsummary : view.get? orderId with
    | none => exact hsummary
    | some summary => exact Dictionary.get?_insert_self _ _ _
  · rw [if_neg hid]
    cases view.get? orderId with
    | none => rfl
    | some summary => exact (Dictionary.get?_insert _ _ _ _).trans (if_neg hid)

/-- An envelope concerns the order it belongs to and no other. -/
theorem get?_handle (view : OrderView) (envelope : Envelope ε) (id : String) :
    (view.handle envelope).get? id =
      if envelope.aggregateId = id then
        OrderSummary.next? id (envelope.version.getD 0) (envelope.event.data? OrderEvent)
          (view.get? id)
      else view.get? id := by
  unfold handle
  cases envelope.event.data? OrderEvent with
  | none => exact view.get?_advance _ _ none id
  | some event =>
      cases event with
      | created event =>
          by_cases hid : envelope.aggregateId = id
          · subst hid
            rw [if_pos rfl]
            refine (Dictionary.get?_insertIfNew _ _ _ _).trans ((if_pos rfl).trans ?_)
            show some ((view.get? envelope.aggregateId).getD _) = _
            cases view.get? envelope.aggregateId <;> rfl
          · rw [if_neg hid]
            exact (Dictionary.get?_insertIfNew _ _ _ _).trans (if_neg hid)
      | _ => exact view.get?_advance _ _ (some _) id

/-- Being handed an envelope twice is being handed it once. -/
theorem get?_handle_handle (view : OrderView) (envelope : Envelope ε) (id : String) :
    ((view.handle envelope).handle envelope).get? id = (view.handle envelope).get? id := by
  rw [get?_handle, get?_handle]
  split
  · exact OrderSummary.next?_next? _ _ _ _
  · rfl

end OrderView

/-! ## Through the bus -/

namespace OrderView

variable {ε η ω : Type} [EventType ε] [Includes OrderEvent ε] [DecidableEq η]

/-- Among the listeners there is a view kept by this handler: what the handler is called with
it hands to the view, and no other handler touches the view. -/
structure KeptBy (handler : η) (view : ω → OrderView) (react : Reaction ε η ω) : Prop where
  handed : ∀ envelope listeners,
    view (react handler envelope listeners).1 = (view listeners).handle envelope
  others : ∀ other envelope listeners, other ≠ handler →
    view (react other envelope listeners).1 = view listeners

variable {handler : η} {view : ω → OrderView} {react : Reaction ε η ω}

/-- However often the handler is among those that are called, the view is handed the envelope
once, or not at all. -/
theorem KeptBy.get?_foldl_call (h : KeptBy handler view react) (envelope : Envelope ε)
    (handlers : List η) (state : Bus η × ω) (id : String) :
    (view (handlers.foldl (Bus.call react envelope) state).2).get? id =
      if handler ∈ handlers then ((view state.2).handle envelope).get? id
      else (view state.2).get? id := by
  induction handlers generalizing state with
  | nil => rfl
  | cons other rest ih =>
      rw [List.foldl_cons, ih]
      by_cases hother : other = handler
      · subst hother
        rw [if_pos List.mem_cons_self,
          show view (Bus.call react envelope state other).2 = _ from h.handed envelope state.2]
        split
        · exact get?_handle_handle _ envelope id
        · rfl
      · rw [show view (Bus.call react envelope state other).2 = view state.2 from
          h.others other envelope state.2 hother]
        simp [Ne.symm hother]

theorem KeptBy.get?_publish (h : KeptBy handler view react) {envelope : Envelope ε}
    {state : Bus η × ω} (hsubscribed : handler ∈ state.1.handlersOf envelope.eventName)
    (id : String) :
    (view (Bus.publish react envelope state).2).get? id =
      ((view state.2).handle envelope).get? id := by
  rw [Bus.publish, h.get?_foldl_call, if_pos hsubscribed]

end OrderView

namespace Bus

variable {ε η ω : Type} [EventType ε] [DecidableEq η] {react : Reaction ε η ω} {handler : η}
  {name : String} {state : Bus η × ω}

/-- Publishing leaves every subscription in place. -/
theorem mem_handlersOf_publish (h : handler ∈ state.1.handlersOf name) (envelope : Envelope ε) :
    handler ∈ (publish react envelope state).1.handlersOf name := by
  rw [publish]
  generalize state.1.handlersOf envelope.eventName = handlers
  induction handlers generalizing state with
  | nil => exact h
  | cons other rest ih => exact ih (mem_handlersOf_subscribeAll.mpr (.inl h))

theorem mem_handlersOf_publishAll (h : handler ∈ state.1.handlersOf name)
    (envelopes : List (Envelope ε)) :
    handler ∈ (publishAll react envelopes state).1.handlersOf name := by
  induction envelopes generalizing state with
  | nil => exact h
  | cons envelope rest ih => exact ih (mem_handlersOf_publish h envelope)

end Bus

/-! ## Orders and their summaries -/

namespace OrderSummary

/-- The summary of an order in this state, once it has been created. -/
def ofState? (orderId : String) (version : Int) (s : OrderState) : Option OrderSummary := do
  let status ← s.status
  let customerId ← s.customerId
  return ⟨orderId, customerId, status, s.items.length, s.totalQuantity, s.trackingNumber, version⟩

/-- The summary shows the order as it is. -/
structure Shows {ε : Type} (summary : OrderSummary) (order : Order ε) : Prop where
  orderId : summary.orderId = order.id
  customer : order.state.customerId = some summary.customerId
  status : order.state.status = some summary.status
  itemCount : summary.itemCount = order.state.items.length
  totalQuantity : summary.totalQuantity = order.state.totalQuantity
  trackingNumber : summary.trackingNumber = order.state.trackingNumber
  version : summary.version = order.currentVersion

theorem shows_of_ofState? {ε : Type} {orderId : String} {members : List Membership}
    {s : OrderState} {summary : OrderSummary}
    (h : ofState? orderId members.length s = some summary) :
    summary.Shows (.restingOn orderId members s : Order ε) := by
  obtain ⟨status, hstatus, h⟩ := Option.bind_eq_some_iff.mp h
  obtain ⟨customerId, hcustomer, h⟩ := Option.bind_eq_some_iff.mp h
  cases h
  exact ⟨rfl, hcustomer, hstatus, rfl, rfl, rfl, rfl⟩

end OrderSummary

namespace OrderEvent

/-- The event is the one that an order begins with. -/
def creates : OrderEvent → Bool
  | created _ => true
  | _ => false

end OrderEvent

namespace OrderState

variable {s : OrderState} {now : Timestamp} {command : OrderCommand} {e : OrderEvent}

/-- An order is created if there is none, and everything else happens to one that exists. -/
theorem creates_of_decide (h : s.decide now command = .ok e) : e.creates = s.status.isNone := by
  cases decide_eq_ok_iff.mp h with
  | created hstatus => rw [hstatus]; rfl
  | itemsUpdated hstatus => rw [hstatus]; rfl
  | confirmed hstatus => rw [hstatus]; rfl
  | shipped hstatus => rw [hstatus]; rfl
  | delivered hstatus => rw [hstatus]; rfl
  | cancelled hstatus => rw [hstatus]; rfl

/-- The state is that of an order that has been created, or nothing has happened yet. -/
inductive Founded : OrderState → Prop
  | initial : Founded .initial
  | created {s : OrderState} {status : OrderStatus} {customerId : Uuid}
      (hstatus : s.status = some status) (hcustomer : s.customerId = some customerId) : Founded s

theorem Founded.isSome_ofState? (h : s.Founded) (orderId : String) (version : Int) :
    (OrderSummary.ofState? orderId version s).isSome ↔ s.status ≠ none := by
  cases h with
  | initial => exact ⟨nofun, fun h => absurd rfl h⟩
  | created hstatus hcustomer => simp [OrderSummary.ofState?, hstatus, hcustomer]

/-- An event that has been decided on such a state leaves an order that has been created. -/
theorem Founded.exists_apply (h : s.Founded) (hcreates : e.creates = s.status.isNone) :
    ∃ status customerId,
      (s.apply e).status = some status ∧ (s.apply e).customerId = some customerId := by
  cases h with
  | initial =>
      cases e with
      | created event => exact ⟨_, _, rfl, rfl⟩
      | _ => cases hcreates
  | created hstatus hcustomer =>
      cases e with
      | itemsUpdated event => exact ⟨_, _, hstatus, hcustomer⟩
      | created event => exact ⟨_, _, rfl, rfl⟩
      | _ => exact ⟨_, _, rfl, hcustomer⟩

end OrderState

namespace OrderSummary

theorem ofState?_eq {s : OrderState} {status : OrderStatus} {customerId : Uuid}
    (hstatus : s.status = some status) (hcustomer : s.customerId = some customerId)
    (orderId : String) (version : Int) :
    ofState? orderId version s = some ⟨orderId, customerId, status, s.items.length,
      s.totalQuantity, s.trackingNumber, version⟩ := by
  simp [ofState?, hstatus, hcustomer]

/-- An event that is new to a summary and does not create the order is followed. -/
theorem next?_of_lt {summary : OrderSummary} {version : Int} (h : summary.version < version)
    {e : OrderEvent} (hcreates : e.creates = false) (orderId : String) :
    next? orderId version (some e) (some summary) =
      some (OrderSummary.follow { summary with version } e) := by
  have hadvance : summary.advance version (some e) =
      OrderSummary.follow { summary with version } e := by
    rw [advance, if_neg (Int.not_le.mpr h)]
  rw [← hadvance]
  cases e with
  | created event => cases hcreates
  | _ => rfl

/-- The summary follows its order: an event that has been decided takes the summary of the
order as it was to the summary of the order as it is. -/
theorem next?_ofState? {s : OrderState} {e : OrderEvent} (h : s.Founded)
    (hcreates : e.creates = s.status.isNone) (orderId : String) (version : Int) :
    next? orderId (version + 1) (some e) (ofState? orderId version s) =
      ofState? orderId (version + 1) (s.apply e) := by
  cases h with
  | initial =>
      cases e with
      | created event => rfl
      | _ => cases hcreates
  | created hstatus hcustomer =>
      rw [hstatus] at hcreates
      rw [ofState?_eq hstatus hcustomer, next?_of_lt (Int.lt_succ version) hcreates]
      cases e with
      | created event => cases hcreates
      | _ => simp [ofState?, follow, OrderState.apply, OrderState.totalQuantity, hstatus, hcustomer]

end OrderSummary

end EventLog
