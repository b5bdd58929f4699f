/-
# Envelopes

An envelope is an event on its way between an aggregate, the store and the bus. It says
which aggregate the event belongs to and carries headers; once the event has been stored
it also has an identifier, a version in its stream and a position in the whole log. A
stored event knows its aggregate only by the header that names it.
-/

import EventLog.Dictionary
import EventLog.Event

namespace EventLog

/-- Texts under names, in the order in which the names were first given. -/
abbrev Headers := Dictionary String String

/-- The header that names the aggregate. -/
def aggregateIdHeader : String := "AggregateID"

/-- The header that ties together what belongs to one request. -/
def correlationIdHeader : String := "CorrelationID"

/-- The header with the time of storing. -/
def timestampHeader : String := "Timestamp"

structure Envelope (ε : Type) where
  eventId : Option Uuid
  aggregateId : String
  version : Option Int
  position : Option Int
  headers : Headers
  event : Event ε

namespace Envelope

variable {ε : Type}

/-- An event that has not been stored. -/
def fresh (aggregateId : String) (event : Event ε) : Envelope ε where
  eventId := none
  aggregateId := aggregateId
  version := none
  position := none
  headers := .empty
  event := event

/-- An event as it is read from a store. -/
def stored (eventId : Uuid) (version position : Int) (headers : Headers) (event : Event ε) :
    Envelope ε where
  eventId := some eventId
  aggregateId := (headers.get? aggregateIdHeader).getD ""
  version := some version
  position := some position
  headers := headers
  event := event

def header? (envelope : Envelope ε) (name : String) : Option String :=
  envelope.headers.get? name

def withHeader (envelope : Envelope ε) (name value : String) : Envelope ε :=
  { envelope with headers := envelope.headers.insert name value }

def withVersion (envelope : Envelope ε) (version : Int) : Envelope ε :=
  { envelope with version := some version }

/-- The same envelope, now stored. -/
def persistedAs (envelope : Envelope ε) (eventId : Uuid) (version position : Int) :
    Envelope ε :=
  { envelope with eventId := some eventId, version := some version, position := some position }

def eventName [EventType ε] (envelope : Envelope ε) : String := envelope.event.name

@[simp] theorem header?_withHeader (envelope : Envelope ε) (name name' value : String) :
    (envelope.withHeader name value).header? name' =
      if name = name' then some value else envelope.header? name' :=
  Dictionary.get?_insert _ _ _ _

end Envelope

end EventLog
