/-
# Backends with disturbances

The store in memory behind a schedule of what may happen to a caller in practice: the
backend refuses, answers late or never, commits and then loses its answer, or lets another
writer in first. The schedule gives one disturbance, or none, to each call in turn, so a
run is determined by it and any pattern of failures can be written down.
-/

import EventLog.Backend.Basic

namespace EventLog

inductive Disturbance (ε : Type) where
  /-- The call fails and nothing happens. -/
  | refuse (error : Error)
  /-- An append fails as if another writer had come first. -/
  | conflict
  /-- Nothing happens for a while. -/
  | delay (duration : Nat)
  /-- Another writer appends these events to the same stream first. -/
  | interleave (batch : List (Envelope ε))
  /-- The call never answers and nothing happens. -/
  | silence
  /-- An append takes effect and never answers. -/
  | silentCommit
  /-- An append takes effect and answers as if nothing had been stored. -/
  | emptyAnswer

/-- The store in memory, the disturbances still to come, and the calls so far. -/
structure Disturbed (ε : Type) where
  memory : Memory
  onAppend : List (Option (Disturbance ε))
  onQuery : List (Option (Disturbance ε))
  appendCalls : Nat
  queryCalls : Nat

namespace Disturbed

variable {ε : Type} [EventType ε]

/-- An empty store with this schedule. -/
def scheduled (onAppend onQuery : List (Option (Disturbance ε))) : Disturbed ε :=
  ⟨.empty, onAppend, onQuery, 0, 0⟩

/-- The disturbance of the next append, and the state in which that call has begun. -/
def beginAppend (state : Disturbed ε) : Option (Disturbance ε) × Disturbed ε :=
  (state.onAppend.head?.join,
    { state with onAppend := state.onAppend.tail, appendCalls := state.appendCalls + 1 })

def beginQuery (state : Disturbed ε) : Option (Disturbance ε) × Disturbed ε :=
  (state.onQuery.head?.join,
    { state with onQuery := state.onQuery.tail, queryCalls := state.queryCalls + 1 })

/-- Another writer's append; whether it succeeds is not this caller's business. -/
def foreign (supply : Nat → Draw) (stream : String) (batch : List (Envelope ε))
    (state : Disturbed ε) : Disturbed ε :=
  { state with memory := (state.memory.append supply stream batch none).2 }

def append (supply : Nat → Draw) (stream : String) (batch : List (Envelope ε))
    (expected : Option Int) (state : Disturbed ε) : Call (Disturbed ε) (List (Envelope ε)) :=
  let (disturbance, state) := state.beginAppend
  let carryOut (state : Disturbed ε) : Except Error (List (Envelope ε)) × Disturbed ε :=
    let (answer, memory) := state.memory.append supply stream batch expected
    (answer, { state with memory })
  let proceed (state : Disturbed ε) : Call (Disturbed ε) (List (Envelope ε)) :=
    let (answer, state) := carryOut state
    .answered answer state
  match disturbance with
  | none => proceed state
  | some (.refuse error) => .answered (.error error) state
  | some .conflict =>
    .answered (.error (.conflict stream expected (expected.getD 0 + 1))) state
  | some (.delay duration) => .pause duration state (proceed state)
  | some (.interleave others) => proceed (state.foreign supply stream others)
  | some .silence => .silent state
  | some .silentCommit =>
    match carryOut state with
    | (.ok _, state) => .silent state
    | (.error e, state) => .answered (.error e) state
  | some .emptyAnswer =>
    match carryOut state with
    | (.ok _, state) => .answered (.ok []) state
    | (.error e, state) => .answered (.error e) state

/-- A read. Disturbances that are about appends leave it alone. -/
def query (supply : Nat → Draw) (spec : ReadSpec) (state : Disturbed ε) :
    Call (Disturbed ε) (List (Envelope ε)) :=
  let (disturbance, state) := state.beginQuery
  let proceed (state : Disturbed ε) : Call (Disturbed ε) (List (Envelope ε)) :=
    .answered (.ok (state.memory.store.query spec)) state
  match disturbance with
  | some (.refuse error) => .answered (.error error) state
  | some (.delay duration) => .pause duration state (proceed state)
  | some (.interleave others) => proceed (state.foreign supply spec.stream others)
  | some .silence => .silent state
  | _ => proceed state

def backend (supply : Nat → Draw) : Backend ε (Disturbed ε) := ⟨append supply, query supply⟩

end Disturbed

end EventLog
