/-
# Access to an event log

Everything that can be asked of an event log, whatever keeps it. Each question is answered
in the monad `m` of the keeper: a change of a value for the log in memory, a conversation
with a server for the log in a database.
-/

import EventLog.Read.Query

namespace EventLog

/-- What answers checked reads. -/
structure Readable (ε : Type) (m : Type → Type) where
  query : ReadSpec → m (Except Error (List (Envelope ε)))
  /-- How many envelopes the same read would return. -/
  count : ReadSpec → m (Except Error Nat)

/-- What takes events and tells where they stand. -/
structure Access (ε : Type) (m : Type → Type) extends Readable ε m where
  /-- Store a batch at the end of a stream; the answer is the batch as it was stored. -/
  append : String → List (Envelope ε) → Option Int → m (Except Error (List (Envelope ε)))
  /-- Put stored events at the end of a stream as well; the answer is its version. -/
  link : String → List Uuid → Option Int → m (Except Error Int)
  /-- Remove a stream, but no event. -/
  delete : String → m (Except Error Unit)
  hasEvent : Uuid → m (Except Error Bool)
  /-- The stream in which an event first came in. -/
  streamOf : Uuid → m (Except Error (Option String))
  /-- The highest version of an event in a stream. -/
  versionIn : String → Uuid → m (Except Error (Option Int))
  inStream : String → Uuid → m (Except Error Bool)
  /-- The version of a stream, 0 if there is no such stream. -/
  lastVersion : String → m (Except Error Int)

end EventLog
