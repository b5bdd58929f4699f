/-
# Writing to the store

A write names a stream and, if the writer cares, the version it expects to find there. It
takes effect completely or not at all: everything that can fail, encoding included, is
checked before the store is touched, and a failing operation returns no store.

What a write takes from outside, the clock and fresh identifiers, is handed in as a
`Draw`.
-/

import EventLog.Read.Query
import EventLog.Store.Basic
import EventLog.Timestamp.Printer

namespace EventLog

/-- What one write takes from its surroundings: the time, and for each event of the batch
a fresh identifier and a fresh correlation identifier. -/
structure Draw where
  now : Timestamp
  eventId : Nat → Uuid
  correlationId : Nat → Uuid

/-- Headers as they are stored: a correlation identifier is supplied if none is given, and
the time of storing replaces any other. -/
def Headers.stamp (headers : Headers) (now : Timestamp) (correlationId : Uuid) : Headers :=
  (headers.insertIfNew correlationIdHeader correlationId.text).insert timestampHeader
    now.textWithOffset

/-- An event ready to be stored. -/
structure Staged (ε : Type) where
  eventId : Uuid
  payload : String
  envelope : Envelope ε

namespace Staged

variable {ε : Type} [EventType ε]

/-- Prepare the `index`-th event of a batch. -/
def ofEnvelope (draw : Draw) (index : Nat) (envelope : Envelope ε) :
    Except Error (Staged ε) :=
  envelope.event.marshal.map fun payload =>
    { eventId := draw.eventId index, payload,
      envelope := { envelope with
        headers := envelope.headers.stamp draw.now (draw.correlationId index) } }

/-- Prepare a batch; the first event that cannot be encoded decides. -/
def ofEnvelopes (draw : Draw) (index : Nat) :
    List (Envelope ε) → Except Error (List (Staged ε))
  | [] => .ok []
  | envelope :: rest => do
    let staged ← ofEnvelope draw index envelope
    return staged :: (← ofEnvelopes draw (index + 1) rest)

/-- The body to store. -/
def body (staged : Staged ε) (now : Timestamp) : StoredEvent where
  name := staged.envelope.eventName
  payload := staged.payload
  headers := staged.envelope.headers
  createdAt := now

end Staged

namespace Store

variable {ε : Type} [EventType ε]

/-- The last version of a stream, unless another one is expected. -/
def checkExpected (s : Store) (stream : String) (expected : Option Int) : Except Error Int :=
  let actual := s.lastVersion stream
  match expected with
  | some version =>
    if version = actual then .ok actual else .error (.conflict stream expected actual)
  | none => .ok actual

/-- Keep these bodies. -/
def keep (s : Store) (now : Timestamp) (batch : List (Staged ε)) : Store :=
  { s with
    events := batch.foldl (fun events staged => events.insert staged.eventId (staged.body now))
      s.events }

/-- Store a batch at the end of a stream: the envelopes as they were stored, and the store
afterwards. -/
def append (s : Store) (draw : Draw) (stream : String) (batch : List (Envelope ε))
    (expected : Option Int) : Except Error (List (Envelope ε) × Store) := do
  requireStreamId stream
  let staged ← Staged.ofEnvelopes draw 0 batch
  let current ← s.checkExpected stream expected
  let ids := staged.map Staged.eventId
  let places := membersFrom s.lastPosition current ids
  return (
    List.zipWith (fun staged place =>
      staged.envelope.persistedAs staged.eventId place.version place.position) staged places,
    (s.keep draw.now staged).extend stream current ids)

/-- Put events that are stored already at the end of a stream as well: the version
afterwards, and the store. -/
def link (s : Store) (stream : String) (ids : List Uuid) (expected : Option Int) :
    Except Error (Int × Store) := do
  requireStreamId stream
  match ids.find? fun id => !s.hasEvent id with
  | some missing => throw (.unknownEvent missing)
  | none =>
    let current ← s.checkExpected stream expected
    return (current + ids.length, s.extend stream current ids)

/-- Remove a stream and its memberships. The bodies stay. -/
def delete (s : Store) (stream : String) : Except Error Store := do
  requireStreamId stream
  return { s with streams := s.streams.erase stream }

end Store

end EventLog
