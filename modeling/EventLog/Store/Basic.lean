/-
# The store in memory

The log keeps every event body for good. A stream is a list of memberships: which event
stands at which version, and at which position of the whole log it came in. Deleting a
stream removes its memberships and no body, so an event that other streams link to can
still be read there.
-/

import EventLog.Envelope
import EventLog.Timestamp.Basic

namespace EventLog

/-- An event as it was stored. -/
structure StoredEvent where
  name : String
  payload : String
  headers : Headers
  createdAt : Timestamp

/-- An event's place in a stream. -/
structure Membership where
  position : Int
  version : Int
  eventId : Uuid
deriving DecidableEq

structure Store where
  events : Dictionary Uuid StoredEvent
  streams : Dictionary String (List Membership)
  /-- The last position given out; positions are never given out twice. -/
  lastPosition : Int

namespace Store

def empty : Store := ⟨.empty, .empty, 0⟩

instance : Inhabited Store := ⟨empty⟩

/-- The memberships of a stream in version order; none if there is no such stream. -/
def members (s : Store) (stream : String) : List Membership := (s.streams.get? stream).getD []

/-- The version of the last membership, 0 without one. -/
def lastVersion (s : Store) (stream : String) : Int :=
  match (s.members stream).getLast? with
  | some member => member.version
  | none => 0

def hasEvent (s : Store) (id : Uuid) : Bool := s.events.contains id

/-- Memberships for these events behind version `current` and position `position`. -/
def membersFrom (position current : Int) : List Uuid → List Membership
  | [] => []
  | id :: rest => ⟨position + 1, current + 1, id⟩ :: membersFrom (position + 1) (current + 1) rest

/-- Put these events at the end of a stream whose last version is `current`. -/
def extend (s : Store) (stream : String) (current : Int) (ids : List Uuid) : Store :=
  { s with
    streams := s.streams.insert stream
      (s.members stream ++ membersFrom s.lastPosition current ids)
    lastPosition := s.lastPosition + ids.length }

@[simp] theorem members_empty (stream : String) : empty.members stream = [] := rfl

@[simp] theorem events_extend (s : Store) (stream : String) (current : Int) (ids : List Uuid) :
    (s.extend stream current ids).events = s.events := rfl

theorem members_extend (s : Store) (stream other : String) (current : Int) (ids : List Uuid) :
    (s.extend stream current ids).members other =
      if stream = other then s.members stream ++ membersFrom s.lastPosition current ids
      else s.members other := by
  by_cases h : stream = other <;> simp [extend, members, Dictionary.get?_insert, h]

@[simp] theorem length_membersFrom (position current : Int) (ids : List Uuid) :
    (membersFrom position current ids).length = ids.length := by
  induction ids generalizing position current with
  | nil => rfl
  | cons id rest ih => simp [membersFrom, ih]

end Store

end EventLog
