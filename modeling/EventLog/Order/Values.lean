/-
# Items and statuses of an order

The parts an order is made of, with their JSON forms. A status is read from its name
alone or from the object that gives it as a member without content.
-/

import EventLog.Error
import EventLog.Json.Parser
import EventLog.Json.Record

namespace EventLog

/-- How much of a product is ordered. -/
structure OrderItem where
  productId : Uuid
  quantity : Int32
deriving DecidableEq

namespace OrderItem

def toJson (item : OrderItem) : Json :=
  .record [("product_id", .ofText item.productId.text), ("quantity", .int item.quantity.toInt)]

def ofJson? (v : Json) : Option OrderItem := do
  match ← Json.fields? ["product_id", "quantity"] v with
  | [productId, quantity] =>
    some ⟨← Json.required Json.asUuid productId, ← Json.required Json.asInt32 quantity⟩
  | _ => none

/-- The sum of the quantities. -/
def totalQuantity (items : List OrderItem) : Int :=
  items.foldl (fun total item => total + item.quantity.toInt) 0

end OrderItem

inductive OrderStatus where
  | created
  | confirmed
  | shipped
  | delivered
  | cancelled
deriving DecidableEq

namespace OrderStatus

def name : OrderStatus → String
  | created => "Created"
  | confirmed => "Confirmed"
  | shipped => "Shipped"
  | delivered => "Delivered"
  | cancelled => "Cancelled"

def all : List OrderStatus := [created, confirmed, shipped, delivered, cancelled]

def ofName? (name : String) : Option OrderStatus := all.find? fun status => status.name = name

/-- Nothing can happen to the order any more. -/
def isFinal : OrderStatus → Bool
  | delivered => true
  | cancelled => true
  | _ => false

def ofJson? : Json → Option OrderStatus
  | .string (some name) => ofName? name
  | .object [(some name, .null)] => ofName? name
  | _ => none

/-- The status a JSON text stands for. -/
def ofText (s : String) : Except Error OrderStatus :=
  match (Json.ofText? s).bind ofJson? with
  | some status => .ok status
  | none => .error .serialization

@[simp] theorem ofName?_name (status : OrderStatus) : ofName? status.name = some status := by
  cases status <;> decide

end OrderStatus

end EventLog
