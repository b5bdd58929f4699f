/-
# What can be asked of an order

A command is decided against the state of the order: it is either refused for one reason,
or it becomes one event. The decision changes nothing by itself, and the time it may put
into the event is handed in.
-/

import EventLog.Order.State
import EventLog.Text.Blank

namespace EventLog

inductive OrderCommand where
  | create (customerId : Uuid) (items : List OrderItem)
  | updateItems (items : List OrderItem) (reason : Option String)
  | confirm
  | ship (trackingNumber carrier : String)
  | deliver (signature : Option String)
  | cancel (reason : Option String) (cancelledBy : Option Uuid)
deriving DecidableEq

namespace OrderCommand

def name : OrderCommand → String
  | create .. => "CreateOrder"
  | updateItems .. => "UpdateItems"
  | confirm => "ConfirmOrder"
  | ship .. => "ShipOrder"
  | deliver _ => "DeliverOrder"
  | cancel .. => "CancelOrder"

/-- The command makes sense for an order that does not exist yet. -/
def creates : OrderCommand → Bool
  | create .. => true
  | _ => false

end OrderCommand

/-- Why a command is refused. -/
inductive OrderError where
  | alreadyCreated
  | notCreated
  | alreadyCancelled
  | alreadyConfirmed
  | notConfirmed
  | notShipped
  | invalidTransition (status : OrderStatus)
  | emptyItems
  | invalidQuantity (quantity : Int32)
  | missingTrackingNumber
deriving DecidableEq

namespace OrderError

def message : OrderError → String
  | alreadyCreated => "Order already exists"
  | notCreated => "Order has not been created"
  | alreadyCancelled => "Order is already cancelled"
  | alreadyConfirmed => "Order is already confirmed"
  | notConfirmed => "Order must be confirmed before shipping"
  | notShipped => "Order must be shipped before delivery"
  | invalidTransition status => "Cannot modify order in status: " ++ status.name
  | emptyItems => "Order items cannot be empty"
  | invalidQuantity quantity =>
    "Invalid item quantity: " ++ String.ofList (Text.Numeral.integer quantity.toInt)
  | missingTrackingNumber => "Tracking number cannot be empty"

def toError (e : OrderError) : Error := .validation e.message

end OrderError

namespace OrderState

/-- There are items, and each quantity is positive. -/
def checkItems (items : List OrderItem) : Except OrderError Unit :=
  if items.isEmpty then .error .emptyItems
  else match items.find? fun item => item.quantity ≤ 0 with
    | some item => .error (.invalidQuantity item.quantity)
    | none => .ok ()

/-- The status of an order that exists. -/
def requireStatus (s : OrderState) : Except OrderError OrderStatus :=
  match s.status with
  | some status => .ok status
  | none => .error .notCreated

def decideCreate (s : OrderState) (customerId : Uuid) (items : List OrderItem) :
    Except OrderError OrderEvent := do
  if s.status.isSome then .error .alreadyCreated
  else
    checkItems items
    .ok (.created ⟨customerId, items⟩)

def decideUpdateItems (s : OrderState) (items : List OrderItem) (reason : Option String) :
    Except OrderError OrderEvent := do
  match ← s.requireStatus with
  | .created =>
    checkItems items
    .ok (.itemsUpdated ⟨items, reason⟩)
  | .cancelled => .error .alreadyCancelled
  | status => .error (.invalidTransition status)

def decideConfirm (s : OrderState) (now : Timestamp) : Except OrderError OrderEvent := do
  match ← s.requireStatus with
  | .created => .ok (.confirmed ⟨now⟩)
  | .confirmed => .error .alreadyConfirmed
  | .cancelled => .error .alreadyCancelled
  | status => .error (.invalidTransition status)

def decideShip (s : OrderState) (now : Timestamp) (trackingNumber carrier : String) :
    Except OrderError OrderEvent := do
  match ← s.requireStatus with
  | .confirmed =>
    if Text.allBlank trackingNumber then .error .missingTrackingNumber
    else .ok (.shipped ⟨trackingNumber, carrier, now⟩)
  | .created => .error .notConfirmed
  | status => .error (.invalidTransition status)

def decideDeliver (s : OrderState) (now : Timestamp) (signature : Option String) :
    Except OrderError OrderEvent := do
  match ← s.requireStatus with
  | .shipped => .ok (.delivered ⟨now, signature⟩)
  | _ => .error .notShipped

def decideCancel (s : OrderState) (reason : Option String) (cancelledBy : Option Uuid) :
    Except OrderError OrderEvent := do
  match ← s.requireStatus with
  | .cancelled => .error .alreadyCancelled
  | .delivered => .error (.invalidTransition .delivered)
  | _ => .ok (.cancelled ⟨reason, cancelledBy⟩)

/-- The event a command becomes at time `now`, or why it is refused. -/
def decide (s : OrderState) (now : Timestamp) : OrderCommand → Except OrderError OrderEvent
  | .create customerId items => s.decideCreate customerId items
  | .updateItems items reason => s.decideUpdateItems items reason
  | .confirm => s.decideConfirm now
  | .ship trackingNumber carrier => s.decideShip now trackingNumber carrier
  | .deliver signature => s.decideDeliver now signature
  | .cancel reason cancelledBy => s.decideCancel reason cancelledBy

end OrderState

namespace Order

variable {ε : Type} [EventType ε] [Includes OrderEvent ε]

/-- Decide a command at time `now` and raise its event. -/
def handle (now : Timestamp) (command : OrderCommand) (order : Order ε) :
    Except Error (Order ε) :=
  match order.state.decide now command with
  | .error e => .error e.toError
  | .ok event => order.raise (aggregateType ε) (Includes.inject event)

end Order

end EventLog
