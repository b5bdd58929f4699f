/-
# Access to the log in memory

Questions are functions of the store, and writes replace it if they succeed. An append
takes the next draw of the supply whether it succeeds or not.
-/

import EventLog.Access.Basic
import EventLog.Backend.Basic

namespace EventLog.Memory

variable {ε : Type} [EventType ε]

/-- Answer from the store as it is. -/
def look {α : Type} (question : Store → α) : StateM Memory (Except Error α) := fun memory =>
  (.ok (question memory.store), memory)

/-- Keep the store that a write results in. -/
def write {α : Type} (change : Store → Except Error (α × Store)) :
    StateM Memory (Except Error α) := fun memory =>
  match change memory.store with
  | .error e => (.error e, memory)
  | .ok (answer, store) => (.ok answer, { memory with store })

def access (supply : Nat → Draw) : Access ε (StateM Memory) where
  query spec := look fun store => store.query spec
  count spec := look fun store => store.count spec
  append stream batch expected memory := memory.append supply stream batch expected
  link stream ids expected := write fun store => store.link stream ids expected
  delete stream := write fun store => (store.delete stream).map fun store => ((), store)
  hasEvent id := look fun store => store.hasEvent id
  streamOf id := look fun store => store.streamOf id
  versionIn stream id := look fun store => store.versionIn stream id
  inStream stream id := look fun store => store.inStream stream id
  lastVersion stream := look fun store => store.lastVersion stream

end EventLog.Memory
