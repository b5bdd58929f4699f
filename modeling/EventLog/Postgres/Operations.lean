/-
# The event log in PostgreSQL

Every write runs in one transaction and begins by locking the head of its stream, so
writers of one stream take turns and the version found there cannot change before the
write is committed. What a write needs to encode is encoded before the transaction is
begun.

Versions are integers without bound here, while the database keeps them in eight bytes. A head
is taken to leave room for what is put behind it (`LeavesRoom`); counting in eight bytes then
comes to the same versions.
-/

import EventLog.Json.Parser
import EventLog.Json.Record
import EventLog.Postgres.Program
import EventLog.Store.Write

namespace EventLog

/-- Headers as the JSON text in which they are kept. -/
def Headers.metadata (headers : Headers) : String :=
  (Json.record (headers.entries.map fun entry => (entry.1, .ofText entry.2))).text

/-- The headers a JSON text stands for. -/
def Headers.ofMetadata (metadata : String) : Except Error Headers :=
  match (Json.ofText? metadata).bind Json.asTextMap with
  | some entries => .ok (.ofList entries)
  | none => .error .serialization

end EventLog

namespace EventLog.Postgres

open Program

/-- Create what is missing of the schema. -/
def migrate : Program Unit := do
  execute .createEvents
  execute .createHeads
  execute .createMemberships
  execute .createMembershipIndex

/-- Lock the head of a stream, which is made if need be, and return its version unless
another one is expected. -/
def lockHead (stream : String) (expected : Option Int) : Program Int := do
  execute (.ensureHead stream)
  let current ← fetchOne (.lockHead stream) fun row => row.at? 0 int8
  match expected with
  | some version =>
    if version = current then return current else fail (.conflict stream expected current)
  | none => return current

/-- The rows for memberships of these events behind version `current`. -/
def membershipRows (stream : String) (current : Int) : List Uuid → List MembershipRow
  | [] => []
  | id :: rest => ⟨stream, current + 1, id⟩ :: membershipRows stream (current + 1) rest

/-- A membership is numbered by its place in the batch. -/
theorem membershipRows_eq_mapIdx (stream : String) (current : Int) (ids : List Uuid) :
    membershipRows stream current ids =
      ids.mapIdx fun i id => ⟨stream, current + i + 1, id⟩ := by
  induction ids generalizing current with
  | nil => rfl
  | cons id rest ih =>
      rw [membershipRows, ih, List.mapIdx_cons]
      congr 1
      · simp
      · refine congrArg (List.mapIdx · rest) (funext fun i => funext fun other => ?_)
        congr 1
        push_cast
        omega

/-- Eight bytes hold the version of a head, and that of the last of `n` memberships behind it. -/
def LeavesRoom (current : Int) (n : Nat) : Prop :=
  Int64.minValue.toInt ≤ current ∧ current + n ≤ Int64.maxValue.toInt

namespace LeavesRoom

/-- No version up to the last one overflows. -/
theorem toInt_add {current : Int} {n i : Nat} (h : LeavesRoom current n) (hi : i ≤ n) :
    (Int64.ofInt current + Int64.ofNat i).toInt = current + i := by
  obtain ⟨hlow, hhigh⟩ := h
  have hmin : Int64.minValue.toInt = -2 ^ 63 := by decide
  have hmax : Int64.maxValue.toInt = 2 ^ 63 - 1 := by decide
  rw [← Int64.ofInt_eq_ofNat, ← Int64.ofInt_add]
  exact Int64.toInt_ofInt_of_le (by omega) (by omega)

/-- The rows are the same if their versions are counted in eight bytes. -/
theorem membershipRows_eq {current : Int} {ids : List Uuid} (h : LeavesRoom current ids.length)
    (stream : String) :
    membershipRows stream current ids = ids.mapIdx fun i id =>
      ⟨stream, (Int64.ofInt current + Int64.ofNat i + 1).toInt, id⟩ := by
  rw [membershipRows_eq_mapIdx]
  refine List.mapIdx_eq_mapIdx_iff.mpr fun i hi => ?_
  have hnext : Int64.ofNat (i + 1) = Int64.ofNat i + 1 := Int64.ofNat_add i 1
  rw [Int64.add_assoc, ← hnext, h.toInt_add hi, Int.natCast_succ, ← Int.add_assoc]

end LeavesRoom

/-- A membership the server has inserted. -/
structure Place where
  version : Int
  position : Int
deriving DecidableEq

/-- The failure of inserting memberships behind version `current`: one that is there
already was put there by another writer. -/
def explainInsert (stream : String) (current : Int) (failure : Failure) : Error :=
  if failure.isUniqueViolation then .conflict stream (some current) (current + 1)
  else failure.toError

/-- Insert memberships behind version `current`, which leaves room for them, and move the head.
The server may return them in any order; they are put in the order of their versions. -/
def insertMembers (stream : String) (current : Int) (ids : List Uuid) :
    Program (List Place) := do
  let places ← fetchAll (.insertMemberships (membershipRows stream current ids))
    (explainInsert stream current)
    fun row => do return ⟨← row.at? 0 int8, ← row.at? 1 int8⟩
  execute (.moveHead stream (current + ids.length))
  return places.mergeSort fun a b => a.version ≤ b.version

section Writing

variable {ε : Type} [EventType ε]

/-- The row for the body of an event. -/
def eventRow (now : Timestamp) (staged : Staged ε) : EventRow :=
  ⟨staged.eventId, staged.envelope.eventName, staged.payload, staged.envelope.headers.metadata,
    now⟩

/-- Store a batch at the end of a stream. An empty batch only compares the version. -/
def append (draw : Draw) (stream : String) (batch : List (Envelope ε))
    (expected : Option Int) : Program (List (Envelope ε)) := do
  ofExcept (requireStreamId stream)
  let staged ← ofExcept (Staged.ofEnvelopes draw 0 batch)
  transaction do
    let current ← lockHead stream expected
    if staged.isEmpty then return .abandon []
    else
      execute (.insertEvents (staged.map (eventRow draw.now)))
      let places ← insertMembers stream current (staged.map Staged.eventId)
      return .commit (List.zipWith (fun staged place =>
        staged.envelope.persistedAs staged.eventId place.version place.position) staged places)

end Writing

/-- Put stored events at the end of a stream as well. -/
def link (stream : String) (ids : List Uuid) (expected : Option Int) : Program Int := do
  ofExcept (requireStreamId stream)
  transaction do
    let known ← fetchAll (.knownEvents ids) Failure.toError fun row => row.at? 0 uuidValue
    match ids.find? fun id => !known.contains id with
    | some missing => fail (.unknownEvent missing)
    | none =>
      let current ← lockHead stream expected
      if ids.isEmpty then return .abandon current
      else
        let places ← insertMembers stream current ids
        return .commit (current + places.length)

def delete (stream : String) : Program Unit := do
  ofExcept (requireStreamId stream)
  transaction do
    execute (.deleteMemberships stream)
    execute (.deleteHead stream)
    return .commit ()

def hasEvent (id : Uuid) : Program Bool :=
  fetchOne (.eventExists id) fun row => row.at? 0 boolValue

def streamOf (id : Uuid) : Program (Option String) :=
  fetchOptional (.streamOf id) fun row => row.at? 0 textValue

def versionIn (stream : String) (id : Uuid) : Program (Option Int) :=
  fetchOptional (.versionIn stream id) fun row => row.at? 0 int8

def inStream (stream : String) (id : Uuid) : Program Bool := do
  return (← versionIn stream id).isSome

def lastVersion (stream : String) : Program Int := do
  return (← fetchOptional (.headVersion stream) fun row => row.at? 0 int8).getD 0

section Reading

variable {ε : Type}

/-- The columns of a row that holds a stored event. -/
structure StoredRow where
  version : Int
  position : Int
  eventId : Uuid
  name : String
  payload : String
  metadata : String
deriving DecidableEq

def StoredRow.ofRow (row : Row) : Except Failure StoredRow := do
  return ⟨← row.named "stream_version" int8, ← row.named "position" int8,
    ← row.named "event_id" uuidValue, ← row.named "event_name" textValue,
    ← row.named "event_data" textValue, ← row.named "metadata" textValue⟩

/-- The stored event a row stands for. -/
def envelopeOfRow (row : Row) : Except Error (Envelope ε) :=
  match StoredRow.ofRow row with
  | .error failure => .error failure.toError
  | .ok stored =>
    (Headers.ofMetadata stored.metadata).map fun headers =>
      .stored stored.eventId stored.version stored.position headers
        (.raw stored.name stored.payload)

def query (spec : ReadSpec) : Program (List (Envelope ε)) := do
  let table ← sendWith (.select (.ofSpec spec)) Failure.toError
  ofExcept (table.labelled.mapM envelopeOfRow)

/-- How many events a read would return. -/
def count (spec : ReadSpec) : Program Nat := do
  let n ← fetchOne (.count (.ofSpec spec)) fun row => row.at? 0 int8
  if 0 ≤ n then return n.toNat
  else fail (.unexpected "a count cannot be negative")

end Reading

end EventLog.Postgres
