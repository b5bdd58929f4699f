/-
# Backends

What a repository needs of a store: appending to a stream and answering a read, each a
call on the state of the backend. `Memory` is the store in memory as a backend; it takes
the clock and fresh identifiers from a supply, one draw for each append.
-/

import EventLog.Backend.Call
import EventLog.Store.Lookup
import EventLog.Store.Write

namespace EventLog

structure Backend (ε β : Type) where
  append : String → List (Envelope ε) → Option Int → β → Call β (List (Envelope ε))
  query : ReadSpec → β → Call β (List (Envelope ε))

/-- The store in memory and how many draws have been taken from the supply. -/
structure Memory where
  store : Store
  drawn : Nat

namespace Memory

variable {ε : Type} [EventType ε]

def empty : Memory := ⟨.empty, 0⟩

/-- Append with the next draw of the supply. -/
def append (supply : Nat → Draw) (memory : Memory) (stream : String) (batch : List (Envelope ε))
    (expected : Option Int) : Except Error (List (Envelope ε)) × Memory :=
  match memory.store.append (supply memory.drawn) stream batch expected with
  | .error e => (.error e, { memory with drawn := memory.drawn + 1 })
  | .ok (stored, store) => (.ok stored, ⟨store, memory.drawn + 1⟩)

/-- The store in memory answers at once. -/
def backend (supply : Nat → Draw) : Backend ε Memory where
  append stream batch expected memory :=
    let (answer, memory) := memory.append supply stream batch expected
    .answered answer memory
  query spec memory := .answered (.ok (memory.store.query spec)) memory

end Memory

end EventLog
