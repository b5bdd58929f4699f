/-
# The order view

A read model that keeps one summary per order by listening to published events. It may be
handed an event twice or late, so each summary remembers the version up to which it has
followed its order and passes over anything older. An order enters the view with the
event that created it; events of orders that are not in the view say nothing about it.
-/

import EventLog.Order.Event
import EventLog.Envelope

namespace EventLog

structure OrderSummary where
  orderId : String
  customerId : Uuid
  status : OrderStatus
  itemCount : Nat
  totalQuantity : Int
  trackingNumber : Option String
  version : Int
deriving DecidableEq

namespace OrderSummary

/-- The summary of an order that has just been created. -/
def ofCreated (orderId : String) (version : Int) (event : OrderCreated) : OrderSummary where
  orderId := orderId
  customerId := event.customerId
  status := .created
  itemCount := event.items.length
  totalQuantity := OrderItem.totalQuantity event.items
  trackingNumber := none
  version := version

/-- What an event changes apart from the version. -/
def follow (summary : OrderSummary) : OrderEvent → OrderSummary
  | .created _ => summary
  | .itemsUpdated event =>
    { summary with
      itemCount := event.items.length, totalQuantity := OrderItem.totalQuantity event.items }
  | .confirmed _ => { summary with status := .confirmed }
  | .shipped event =>
    { summary with status := .shipped, trackingNumber := some event.trackingNumber }
  | .delivered _ => { summary with status := .delivered }
  | .cancelled _ => { summary with status := .cancelled }

/-- The summary after an event at `version`. An event that is not of the order family moves
the version only; one that is not newer is passed over. -/
def advance (summary : OrderSummary) (version : Int) (event : Option OrderEvent) :
    OrderSummary :=
  if version ≤ summary.version then summary
  else
    let moved := { summary with version := version }
    match event with
    | some event => moved.follow event
    | none => moved

end OrderSummary

/-- Summaries by order. -/
structure OrderView where
  summaries : Dictionary String OrderSummary

namespace OrderView

def empty : OrderView := ⟨.empty⟩

def get? (view : OrderView) (orderId : String) : Option OrderSummary :=
  view.summaries.get? orderId

/-- The view after an envelope. -/
def handle {ε : Type} [EventType ε] [Includes OrderEvent ε] (view : OrderView)
    (envelope : Envelope ε) : OrderView :=
  let id := envelope.aggregateId
  let version := envelope.version.getD 0
  match envelope.event.data? OrderEvent with
  | some (.created event) => ⟨view.summaries.insertIfNew id (.ofCreated id version event)⟩
  | event =>
    match view.get? id with
    | some summary => ⟨view.summaries.insert id (summary.advance version event)⟩
    | none => view

/-- All summaries in the order of their identifiers. -/
def all (view : OrderView) : List OrderSummary :=
  view.summaries.values.mergeSort fun a b => a.orderId ≤ b.orderId

def countByStatus (view : OrderView) (status : OrderStatus) : Nat :=
  view.summaries.values.countP fun summary => summary.status = status

end OrderView

end EventLog
