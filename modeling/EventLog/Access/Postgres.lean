/-
# Access to the log in a database

Every question is a program. Whoever runs programs, against a server, against none or
against a list of replies, has access to the log.
-/

import EventLog.Access.Basic
import EventLog.Postgres.Operations

namespace EventLog.Postgres

variable {ε : Type} [EventType ε] {m : Type → Type}

def access (draw : Draw) (run : {α : Type} → Program α → m (Except Error α)) : Access ε m where
  query spec := run (query spec)
  count spec := run (count spec)
  append stream batch expected := run (append draw stream batch expected)
  link stream ids expected := run (link stream ids expected)
  delete stream := run (delete stream)
  hasEvent id := run (hasEvent id)
  streamOf id := run (streamOf id)
  versionIn stream id := run (versionIn stream id)
  inStream stream id := run (inStream stream id)
  lastVersion stream := run (lastVersion stream)

end EventLog.Postgres
