/-
# Handling commands for orders

A command is carried out on the order as it is stored, and again from the start if another
writer came in between. A command that needs an order finds out that there is none before
it is decided, so a missing order is reported as missing and not as a refusal.
-/

import EventLog.Order.Command
import EventLog.Order.Summary
import EventLog.Repository.Basic

namespace EventLog.Order

variable {ε β η ω : Type} [EventType ε] [Includes OrderEvent ε] [DecidableEq η]

/-- One blank event of each kind, as an application knows them. -/
def blankEvents (ε : Type) [EventType ε] [Includes OrderEvent ε] : List (Event ε) :=
  OrderEvent.blanks.map fun blank => .typed (Includes.inject blank)

/-- A catalog that decodes the order events. -/
def catalog (ε : Type) [EventType ε] [Includes OrderEvent ε] : EventCatalog ε :=
  (EventCatalog.empty.registerAll (blankEvents ε)).2

/-- Give orders streams named by type and identifier. -/
def registerStream (names : StreamNames) : Except Error StreamNames :=
  names.register typeHashId [typeName]

/-- Carry out a command on an order, unless it needs history and there is none. -/
def act (now : Timestamp) (command : OrderCommand) (order : Order ε) :
    Except Error (Order ε) :=
  if order.originalVersion = 0 ∧ ¬ command.creates then
    .error (.aggregateNotFound typeName order.id)
  else order.handle now command

/-- Carry out a command and save what comes of it; the answer is the version of the order's
stream afterwards. `now` gives the time of each attempt. -/
def handleCommand (r : Repository ε β η ω) (policy : RetryPolicy) (now : Nat → Timestamp)
    (id : String) (command : OrderCommand) (w : World β η ω) :
    Except Error Int × World β η ω :=
  let (outcome, w, _) := r.execute (aggregateType ε) id policy
    (fun order attempt => (act (now attempt) command order, attempt + 1)) (w, 0)
  (outcome.toExcept.map Aggregate.currentVersion, w)

end EventLog.Order
