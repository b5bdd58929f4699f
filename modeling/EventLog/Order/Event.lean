/-
# What happens to an order

Six kinds of event, each with its own payload. A payload is a JSON record whose fields
are written in the order of declaration and read by the rules for records, so that
history written with other spacing, other order or further members stays readable.
-/

import EventLog.Event
import EventLog.Json.Parser
import EventLog.Json.Record
import EventLog.Order.Values
import EventLog.Timestamp.Printer

namespace EventLog

structure OrderCreated where
  customerId : Uuid
  items : List OrderItem
deriving DecidableEq

structure OrderItemsUpdated where
  items : List OrderItem
  reason : Option String
deriving DecidableEq

structure OrderConfirmed where
  confirmedAt : Timestamp
deriving DecidableEq

structure OrderShipped where
  trackingNumber : String
  carrier : String
  shippedAt : Timestamp
deriving DecidableEq

structure OrderDelivered where
  deliveredAt : Timestamp
  signature : Option String
deriving DecidableEq

structure OrderCancelled where
  reason : Option String
  cancelledBy : Option Uuid
deriving DecidableEq

namespace OrderCreated

def toJson (e : OrderCreated) : Json :=
  .record [("customer_id", .ofText e.customerId.text),
    ("items", .array (e.items.map OrderItem.toJson))]

def ofJson? (v : Json) : Option OrderCreated := do
  match ← Json.fields? ["customer_id", "items"] v with
  | [customerId, items] =>
    some ⟨← Json.required Json.asUuid customerId,
      ← Json.required (Json.asList OrderItem.ofJson?) items⟩
  | _ => none

end OrderCreated

namespace OrderItemsUpdated

def toJson (e : OrderItemsUpdated) : Json :=
  .record [("items", .array (e.items.map OrderItem.toJson)),
    ("reason", .ofOption .ofText e.reason)]

def ofJson? (v : Json) : Option OrderItemsUpdated := do
  match ← Json.fields? ["items", "reason"] v with
  | [items, reason] =>
    some ⟨← Json.required (Json.asList OrderItem.ofJson?) items,
      ← Json.optional Json.asText reason⟩
  | _ => none

end OrderItemsUpdated

namespace OrderConfirmed

def toJson (e : OrderConfirmed) : Json :=
  .record [("confirmed_at", .ofText e.confirmedAt.text)]

def ofJson? (v : Json) : Option OrderConfirmed := do
  match ← Json.fields? ["confirmed_at"] v with
  | [confirmedAt] => some ⟨← Json.required Json.asTimestamp confirmedAt⟩
  | _ => none

end OrderConfirmed

namespace OrderShipped

def toJson (e : OrderShipped) : Json :=
  .record [("tracking_number", .ofText e.trackingNumber), ("carrier", .ofText e.carrier),
    ("shipped_at", .ofText e.shippedAt.text)]

def ofJson? (v : Json) : Option OrderShipped := do
  match ← Json.fields? ["tracking_number", "carrier", "shipped_at"] v with
  | [trackingNumber, carrier, shippedAt] =>
    some ⟨← Json.required Json.asText trackingNumber, ← Json.required Json.asText carrier,
      ← Json.required Json.asTimestamp shippedAt⟩
  | _ => none

end OrderShipped

namespace OrderDelivered

def toJson (e : OrderDelivered) : Json :=
  .record [("delivered_at", .ofText e.deliveredAt.text),
    ("signature", .ofOption .ofText e.signature)]

def ofJson? (v : Json) : Option OrderDelivered := do
  match ← Json.fields? ["delivered_at", "signature"] v with
  | [deliveredAt, signature] =>
    some ⟨← Json.required Json.asTimestamp deliveredAt, ← Json.optional Json.asText signature⟩
  | _ => none

end OrderDelivered

namespace OrderCancelled

def toJson (e : OrderCancelled) : Json :=
  .record [("reason", .ofOption .ofText e.reason),
    ("cancelled_by", .ofOption (fun id => .ofText id.text) e.cancelledBy)]

def ofJson? (v : Json) : Option OrderCancelled := do
  match ← Json.fields? ["reason", "cancelled_by"] v with
  | [reason, cancelledBy] =>
    some ⟨← Json.optional Json.asText reason, ← Json.optional Json.asUuid cancelledBy⟩
  | _ => none

end OrderCancelled

inductive OrderEvent where
  | created (event : OrderCreated)
  | itemsUpdated (event : OrderItemsUpdated)
  | confirmed (event : OrderConfirmed)
  | shipped (event : OrderShipped)
  | delivered (event : OrderDelivered)
  | cancelled (event : OrderCancelled)
deriving DecidableEq

namespace OrderEvent

def name : OrderEvent → String
  | created _ => "OrderCreated"
  | itemsUpdated _ => "OrderItemsUpdated"
  | confirmed _ => "OrderConfirmed"
  | shipped _ => "OrderShipped"
  | delivered _ => "OrderDelivered"
  | cancelled _ => "OrderCancelled"

def toJson : OrderEvent → Json
  | created event => event.toJson
  | itemsUpdated event => event.toJson
  | confirmed event => event.toJson
  | shipped event => event.toJson
  | delivered event => event.toJson
  | cancelled event => event.toJson

/-- The event of the same kind with this payload. -/
def ofJson? : OrderEvent → Json → Option OrderEvent
  | created _, v => (OrderCreated.ofJson? v).map created
  | itemsUpdated _, v => (OrderItemsUpdated.ofJson? v).map itemsUpdated
  | confirmed _, v => (OrderConfirmed.ofJson? v).map confirmed
  | shipped _, v => (OrderShipped.ofJson? v).map shipped
  | delivered _, v => (OrderDelivered.ofJson? v).map delivered
  | cancelled _, v => (OrderCancelled.ofJson? v).map cancelled

/-- One event of each kind with nothing in it, into which payloads are read. -/
def blanks : List OrderEvent :=
  [created ⟨.nil, []⟩, itemsUpdated ⟨[], none⟩, confirmed ⟨.epoch⟩, shipped ⟨"", "", .epoch⟩,
    delivered ⟨.epoch, none⟩, cancelled ⟨none, none⟩]

/-- The names of all kinds. -/
def names : List String := blanks.map name

instance : EventType OrderEvent where
  name := name
  marshal event := .ok event.toJson.text
  unmarshal event payload :=
    match (Json.ofText? payload).bind event.ofJson? with
    | some read => .ok read
    | none => .error .serialization

/-- Reading a payload never changes the kind. -/
theorem name_ofJson? {event read : OrderEvent} {v : Json} (h : event.ofJson? v = some read) :
    read.name = event.name := by
  cases event <;> simp only [ofJson?, Option.map_eq_some_iff] at h <;>
    obtain ⟨_, _, rfl⟩ := h <;> rfl

end OrderEvent

end EventLog
