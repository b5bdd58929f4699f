/-
# What can go wrong

Every operation of the library fails with one of these causes, whatever backend stands
behind it. A cause carries what a caller needs to act on it: a conflict says which
version was found, a backend failure keeps the words of the backend. How a payload was
malformed is not kept, only that it could not be encoded or decoded.
-/

import EventLog.Text.Numeral
import EventLog.Uuid

namespace EventLog

inductive Error where
  /-- A command broke a rule of its domain; nothing was applied. -/
  | validation (reason : String)
  /-- The stream has moved on since the writer read it. -/
  | conflict (stream : String) (expected : Option Int) (actual : Int)
  /-- The aggregate has no history. -/
  | aggregateNotFound (aggregateType aggregateId : String)
  /-- No constructor is registered for an event that has been stored. -/
  | unknownEventType (name : String)
  /-- There is no event with this identifier. -/
  | unknownEvent (id : Uuid)
  | unauthorized (cause : String)
  /-- The backend failed in a way that may pass. -/
  | unavailable (cause : String)
  | cancelled
  /-- A payload could not be encoded or decoded. -/
  | serialization
  | unexpected (cause : String)
  /-- A constructor or a stream name is already bound. -/
  | alreadyRegistered (name : String)
  /-- The aggregate type has no rule for naming its streams. -/
  | noStreamName (aggregateType : String)
  | toTimeWithoutFromTime
  | toIdWithoutFromId
  | emptyStreamId
  | missingStream
deriving DecidableEq

namespace Error

/-- An expected version inside a message. -/
def versionText : Option Int → String
  | none => "None"
  | some v => "Some(" ++ String.ofList (Text.Numeral.integer v) ++ ")"

def message : Error → String
  | validation reason => "validation failed: " ++ reason
  | conflict stream expected actual =>
    "concurrency violation on stream " ++ stream ++ ": expected version " ++
      versionText expected ++ ", actual " ++ String.ofList (Text.Numeral.integer actual)
  | aggregateNotFound aggregateType aggregateId =>
    "aggregate not found: " ++ aggregateType ++ " " ++ aggregateId
  | unknownEventType name => "no event factory registered for event type \"" ++ name ++ "\""
  | unknownEvent id => "event " ++ id.text ++ " does not exist"
  | unauthorized _ => "event store rejected the credentials"
  | unavailable _ => "event store unavailable"
  | cancelled => "operation cancelled or timed out"
  | serialization => "event serialization failed"
  | unexpected cause => "unexpected event store error: " ++ cause
  | alreadyRegistered name => "a delegate is already registered for \"" ++ name ++ "\""
  | noStreamName aggregateType =>
    "there is no stream name delegate for aggregate of type \"" ++ aggregateType ++ "\""
  | toTimeWithoutFromTime => "to_time requires from_time"
  | toIdWithoutFromId => "to_id requires from_id"
  | emptyStreamId => "stream id cannot be empty"
  | missingStream => "read query must be scoped to a stream"

/-- The words of the backend behind an error, where there are any. -/
def cause? : Error → Option String
  | unauthorized cause => some cause
  | unavailable cause => some cause
  | unexpected cause => some cause
  | _ => none

def isConflict : Error → Bool
  | conflict .. => true
  | _ => false

def isNotFound : Error → Bool
  | aggregateNotFound .. => true
  | _ => false

/-- Trying again from a fresh read may succeed. -/
def isTransient : Error → Bool
  | conflict .. => true
  | unavailable _ => true
  | _ => false

end Error

end EventLog
