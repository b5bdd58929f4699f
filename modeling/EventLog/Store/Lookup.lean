/-
# Reading from the store

Reads follow their specification membership by membership: filter, put in direction, stop
at the limit. What comes back are envelopes of undecoded events. Point lookups answer
where a single event stands.
-/

import EventLog.Read.Spec
import EventLog.Store.Basic

namespace EventLog.Store

variable {ε : Type}

/-- The membership's event passes the filters of the read. -/
def admitted (s : Store) (spec : ReadSpec) (member : Membership) : Bool :=
  match s.events.get? member.eventId with
  | some body => spec.admits member.position body.createdAt member.eventId
  | none => false

/-- The memberships a read is about, in its direction and up to its limit. -/
def matching (s : Store) (spec : ReadSpec) : List Membership :=
  spec.limited ((spec.directed (s.members spec.stream)).filter (s.admitted spec))

/-- A membership with its event. -/
def envelope? (s : Store) (member : Membership) : Option (Envelope ε) :=
  (s.events.get? member.eventId).map fun body =>
    .stored member.eventId member.version member.position body.headers
      (.raw body.name body.payload)

def query (s : Store) (spec : ReadSpec) : List (Envelope ε) :=
  (s.matching spec).filterMap s.envelope?

def count (s : Store) (spec : ReadSpec) : Nat := (s.matching spec).length

/-- Everything in a stream, in order. -/
def read (s : Store) (stream : String) : List (Envelope ε) := s.query (.whole stream)

/-- The positions at which an event stands, with their streams. -/
def placesOf (s : Store) (id : Uuid) : List (Int × String) :=
  s.streams.entries.flatMap fun entry =>
    (entry.2.filter fun member => member.eventId = id).map fun member =>
      (member.position, entry.1)

/-- The place with the smallest position. -/
def earliest : List (Int × String) → Option (Int × String)
  | [] => none
  | place :: rest =>
    match earliest rest with
    | some other => if other.1 < place.1 then some other else some place
    | none => some place

/-- The stream in which an event first came in, among those that still hold it. -/
def streamOf (s : Store) (id : Uuid) : Option String := (earliest (s.placesOf id)).map Prod.snd

/-- The highest version at which an event stands in a stream. -/
def versionIn (s : Store) (stream : String) (id : Uuid) : Option Int :=
  ((s.members stream).reverse.find? fun member => member.eventId = id).map Membership.version

def inStream (s : Store) (stream : String) (id : Uuid) : Bool := (s.versionIn stream id).isSome

end EventLog.Store
