/-
# Repositories

A repository loads aggregates from their streams and saves what they have raised. It holds
no locks and keeps no aggregates: the version check of the backend is all that stands
between two writers. What has been saved is published, in the order of the stream; what
could not be saved stays with the aggregate.

Everything outside the aggregate is a `World`: the backend, the bus and its listeners, the
metrics, and a clock that moves only while something is waited for.
-/

import EventLog.Aggregate.Basic
import EventLog.Backend.Basic
import EventLog.Bus
import EventLog.EventCatalog
import EventLog.Metrics.Basic
import EventLog.Retry
import EventLog.StreamNames

namespace EventLog

/-- What a repository acts on. -/
structure World (β η ω : Type) where
  backend : β
  bus : Bus η
  listeners : ω
  metrics : Option Metrics
  /-- Milliseconds that have been waited so far. -/
  clock : Nat

namespace World

variable {β η ω : Type}

def wait (duration : Nat) (w : World β η ω) : World β η ω :=
  { w with clock := w.clock + duration }

def measure (record : Metrics → Metrics) (w : World β η ω) : World β η ω :=
  { w with metrics := w.metrics.map record }

end World

/-- The parts a repository is put together from. -/
structure Repository (ε β η ω : Type) where
  backend : Backend ε β
  names : StreamNames
  catalog : EventCatalog ε
  react : Reaction ε η ω
  /-- Milliseconds after which a backend call is given up. -/
  timeout : Option Nat

namespace Repository

variable {ε β η ω σ : Type} [EventType ε] [DecidableEq η]

/-- Make a backend call and wait for its answer, at most as long as the timeout. -/
def bounded {α : Type} (r : Repository ε β η ω) (call : β → Call β α) (w : World β η ω) :
    Except Error α × World β η ω :=
  let result := (call w.backend).await r.timeout
  (result.answer, { w with backend := result.state, clock := w.clock + result.elapsed })

/-- A stored event in decoded form, belonging to aggregate `id`. -/
def decode (r : Repository ε β η ω) (id : String) (envelope : Envelope ε) :
    Except Error (Envelope ε) := do
  let payload ← envelope.event.marshal
  let event ← r.catalog.decode envelope.eventName payload
  return { envelope with event, aggregateId := id }

/-- The aggregate that stored events add up to. -/
def assemble (r : Repository ε β η ω) (type : AggregateType ε σ) (id : String)
    (stored : List (Envelope ε)) : Except Error (Aggregate ε σ) :=
  if stored.isEmpty then .error (.aggregateNotFound type.name id)
  else do
    let history ← stored.mapM (r.decode id)
    match (Aggregate.new type id).rebuild type history with
    | (.ok (), aggregate) => .ok aggregate
    | (.error e, _) => .error e

/-- Rebuild an aggregate from its whole stream. -/
def load (r : Repository ε β η ω) (type : AggregateType ε σ) (id : String)
    (w : World β η ω) : Except Error (Aggregate ε σ) × World β η ω :=
  match r.names.streamOf type.name id with
  | .error e => (.error e, w)
  | .ok stream =>
    match ReadQuery.build { ReadQuery.empty with stream := some stream } with
    | .error e => (.error e, w)
    | .ok spec =>
      match r.bounded (r.backend.query spec) w with
      | (.error e, w) => (.error e, w)
      | (.ok stored, w) =>
        match r.assemble type id stored with
        | .error e => (.error e, w)
        | .ok aggregate => (.ok aggregate, w.measure (·.recordLoad type.name))

/-- Rebuild an aggregate, or begin a new one if it has no history. -/
def loadOrNew (r : Repository ε β η ω) (type : AggregateType ε σ) (id : String)
    (w : World β η ω) : Except Error (Aggregate ε σ) × World β η ω :=
  match r.load type id w with
  | (.error (.aggregateNotFound _ _), w) => (.ok (.new type id), w)
  | result => result

/-- The pending changes as they go to the store, each naming the aggregate it belongs to. -/
def outgoing (a : Aggregate ε σ) : List (Envelope ε) :=
  a.changes.map fun envelope => envelope.withHeader aggregateIdHeader a.id

/-- Hand stored envelopes to the bus. -/
def announce (r : Repository ε β η ω) (stored : List (Envelope ε)) (w : World β η ω) :
    World β η ω :=
  let (bus, listeners) := Bus.publishAll r.react stored (w.bus, w.listeners)
  { w with bus, listeners }.measure (·.recordPublished stored.length)

/-- Store the pending changes behind the expected version and publish them. The aggregate
that is returned has no pending changes if that succeeded and is unchanged if not. -/
def save (r : Repository ε β η ω) (type : AggregateType ε σ) (a : Aggregate ε σ)
    (expected : Option Int) (w : World β η ω) :
    Except Error Unit × Aggregate ε σ × World β η ω :=
  match r.names.streamOf type.name a.id with
  | .error e => (.error e, a, w)
  | .ok stream =>
    if a.changes.isEmpty then (.ok (), a, w)
    else
      let started := w.clock
      match r.bounded (r.backend.append stream (outgoing a) expected) w with
      | (.error e, w) =>
        (.error e, a, if e.isConflict then w.measure (·.recordConflict type.name) else w)
      | (.ok stored, w) =>
        let seconds := (UInt64.ofNat (w.clock - started)).toFloat / 1000.0
        let w := w.measure (·.recordAppend type.name a.changes.length seconds)
        (.ok (), a.markSaved a.currentVersion, r.announce stored w)

/-- Load, act and save, starting over from a fresh load when the failure may pass. The
action works on the aggregate and on a state of the caller's own. -/
def execute {κ : Type} (r : Repository ε β η ω) (type : AggregateType ε σ) (id : String)
    (policy : RetryPolicy)
    (action : Aggregate ε σ → κ → Except Error (Aggregate ε σ) × κ)
    (state : World β η ω × κ) :
    RetryOutcome (Aggregate ε σ) Error × World β η ω × κ :=
  policy.run Error.isTransient
    (fun duration (w, own) => (w.wait duration, own))
    (fun _ (w, own) =>
      match r.loadOrNew type id w with
      | (.error e, w) => (.error e, w, own)
      | (.ok aggregate, w) =>
        match action aggregate own with
        | (.error e, own) => (.error e, w, own)
        | (.ok changed, own) =>
          match r.save type changed (some changed.originalVersion) w with
          | (.error e, _, w) => (.error e, w, own)
          | (.ok (), saved, w) => (.ok saved, w, own))
    state

end Repository

end EventLog
