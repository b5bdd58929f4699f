/-
# The state of an order

What the events of an order add up to. Each kind of event has its effect, written once in
`OrderState.apply`; the transition table gives each kind its entry under its name and
refuses events of any other kind there.
-/

import EventLog.Aggregate.Basic
import EventLog.Order.Event

namespace EventLog

structure OrderState where
  status : Option OrderStatus
  customerId : Option Uuid
  items : List OrderItem
  trackingNumber : Option String
  carrier : Option String
  cancelledReason : Option String
  confirmedAt : Option Timestamp
  deliveredAt : Option Timestamp
deriving DecidableEq

namespace OrderState

/-- Before anything has happened. -/
def initial : OrderState := ⟨none, none, [], none, none, none, none, none⟩

def totalQuantity (s : OrderState) : Int := OrderItem.totalQuantity s.items

/-- The state after an event. -/
def apply (s : OrderState) : OrderEvent → OrderState
  | .created event =>
    { s with status := some .created, customerId := some event.customerId, items := event.items }
  | .itemsUpdated event => { s with items := event.items }
  | .confirmed event =>
    { s with status := some .confirmed, confirmedAt := some event.confirmedAt }
  | .shipped event =>
    { s with status := some .shipped, trackingNumber := some event.trackingNumber,
             carrier := some event.carrier }
  | .delivered event =>
    { s with status := some .delivered, deliveredAt := some event.deliveredAt }
  | .cancelled event => { s with status := some .cancelled, cancelledReason := event.reason }

end OrderState

/-- The state of orders in any application that includes the order events. -/
abbrev Order (ε : Type) := Aggregate ε OrderState

namespace Order

def typeName : String := "Order"

variable (ε : Type) [EventType ε] [Includes OrderEvent ε]

/-- The transition for order events of the kind of `blank`. -/
def transitionOf (blank : OrderEvent) : Transition ε OrderState := fun event =>
  match Includes.project (δ := OrderEvent) event with
  | some event => if event.name = blank.name then some (fun s => s.apply event) else none
  | none => none

def transitions : Transitions ε OrderState :=
  OrderEvent.blanks.foldl (fun t blank => t.on blank.name (transitionOf ε blank))
    (.empty typeName)

def aggregateType : AggregateType ε OrderState := ⟨typeName, .initial, transitions ε⟩

end Order

end EventLog
