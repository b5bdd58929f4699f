/-
# What the statements mean

The three tables as lists of rows in order of insertion, and the effect of each statement
on them. `Tables.carryOut` is a server that keeps the constraints of the schema, never
fails for reasons of its own, and numbers memberships from 1 in the order in which they are
inserted. Programs can be followed against it as they are against a list of replies, and
what they promise of a real server is said of this one.
-/

import EventLog.Dictionary
import EventLog.Postgres.Reply
import EventLog.Postgres.Statement

namespace EventLog.Postgres

/-- A row of the table of memberships with the position the server has given it. -/
structure StoredMembership where
  position : Int
  row : MembershipRow
deriving DecidableEq

structure Tables where
  events : List EventRow
  heads : Dictionary String Int
  memberships : List StoredMembership
  /-- The last position given out. -/
  lastPosition : Int

/-- A membership beside the event it is about. -/
abbrev JoinedRow := StoredMembership × EventRow

/-- The condition holds of a row, its placeholder standing for this value. A comparison with
a value of another type, or with none, holds of nothing. -/
def Filter.holds (filter : Filter) (value : Option Param) (row : JoinedRow) : Bool :=
  match filter, value with
  | .storedSince, some (.time t) => t ≤ row.2.createdAt
  | .storedUntil, some (.time t) => row.2.createdAt ≤ t
  | .positionFrom, some (.int n) => n ≤ row.1.position
  | .positionTo, some (.int n) => row.1.position ≤ n
  | .eventAmong, some (.uuids ids) => ids.contains row.1.row.eventId
  | _, _ => false

namespace Select

/-- Put rows in the order of their versions. -/
def ordered (direction : ReadDirection) (rows : List JoinedRow) : List JoinedRow :=
  match direction with
  | .forward => rows.mergeSort fun a b => a.1.row.version ≤ b.1.row.version
  | .backward => rows.mergeSort fun a b => b.1.row.version ≤ a.1.row.version

/-- The row is of the stream and passes every condition. -/
def selects (s : Select) (row : JoinedRow) : Bool :=
  s.valueOf s.stream = some (.text row.1.row.stream) &&
    s.conditions.all fun c => c.filter.holds (s.valueOf c.placeholder) row

/-- Stop at the value of the limit. -/
def limited (s : Select) (rows : List JoinedRow) : List JoinedRow :=
  match s.limit.map s.valueOf with
  | none => rows
  | some (some (.int n)) => rows.take n.toNat
  | some _ => []

end Select

namespace Tables

def empty : Tables := ⟨[], .empty, [], 0⟩

instance : Inhabited Tables := ⟨empty⟩

/-- Memberships with their events. -/
def joined (t : Tables) : List JoinedRow :=
  t.memberships.flatMap fun m =>
    (t.events.filter fun e => e.eventId = m.row.eventId).map fun e => (m, e)

/-- The rows a read returns, in order. -/
def rowsOf (t : Tables) (s : Select) : List JoinedRow :=
  s.limited (Select.ordered s.direction (t.joined.filter s.selects))

def occurrencesOf (t : Tables) (id : Uuid) : List StoredMembership :=
  t.memberships.filter fun m => m.row.eventId = id

/-- The smaller of two by `key`, the first if they are equal. -/
def least {α : Type} (key : α → Int) : List α → Option α
  | [] => none
  | a :: rest =>
    match least key rest with
    | some b => if key b < key a then some b else some a
    | none => some a

/-- Insert event bodies; refused if an identifier is there already or occurs twice. -/
def insertEvents (t : Tables) : List EventRow → Except Failure Tables
  | [] => .ok t
  | row :: rest =>
    if t.events.any fun e => e.eventId = row.eventId then .error (.state "23505")
    else { t with events := t.events ++ [row] }.insertEvents rest

/-- Insert one membership; refused if its event is unknown or its version is taken. -/
def insertMembership (t : Tables) (row : MembershipRow) : Except Failure Tables :=
  if t.memberships.any fun m => m.row.stream = row.stream ∧ m.row.version = row.version then
    .error (.state "23505")
  else if t.events.any fun e => e.eventId = row.eventId then
    .ok { t with
      memberships := t.memberships ++ [⟨t.lastPosition + 1, row⟩]
      lastPosition := t.lastPosition + 1 }
  else .error (.state "23503")

/-- Insert memberships one after the other: what was inserted, and the tables. -/
def insertMemberships (t : Tables) :
    List MembershipRow → Except Failure (List StoredMembership × Tables)
  | [] => .ok ([], t)
  | row :: rest => do
    let next ← t.insertMembership row
    let (inserted, last) ← next.insertMemberships rest
    return (⟨next.lastPosition, row⟩ :: inserted, last)

/-- Rows of one column. -/
def single (name : String) (type : ColumnType) (cells : List Cell) : Table :=
  ⟨[⟨name, type⟩], cells.map fun cell => [cell]⟩

/-- The columns of a read. -/
def readColumns : List Column :=
  [⟨"stream_version", .int8⟩, ⟨"position", .int8⟩, ⟨"event_id", .uuid⟩, ⟨"event_name", .text⟩,
    ⟨"event_data", .text⟩, ⟨"metadata", .text⟩]

def readCells (row : JoinedRow) : List Cell :=
  [.int row.1.row.version, .int row.1.position, .uuid row.2.eventId, .text row.2.name,
    .text row.2.payload, .text row.2.metadata]

/-- What an insertion returns for each membership. -/
def placeCells (m : StoredMembership) : List Cell := [.int m.row.version, .int m.position]

/-- The reply to a statement that changes nothing. -/
def reply (t : Tables) : Statement → Table
  | .lockHead stream =>
    single "last_version" .int8 ((t.heads.get? stream).map Cell.int).toList
  | .headVersion stream =>
    single "last_version" .int8 ((t.heads.get? stream).map Cell.int).toList
  | .knownEvents ids =>
    single "event_id" .uuid
      ((t.events.filter fun e => ids.contains e.eventId).map fun e => .uuid e.eventId)
  | .eventExists id => single "exists" .bool [.bool (t.events.any fun e => e.eventId = id)]
  | .streamOf id =>
    single "stream_id" .text
      ((least StoredMembership.position (t.occurrencesOf id)).map
        fun m => Cell.text m.row.stream).toList
  | .versionIn stream id =>
    single "stream_version" .int8
      ((least (fun m => -m.row.version)
        ((t.occurrencesOf id).filter fun m => m.row.stream = stream)).map
          fun m => Cell.int m.row.version).toList
  | .select s => ⟨readColumns, (t.rowsOf s).map readCells⟩
  | .count s => single "count" .int8 [.int (t.rowsOf s).length]
  | _ => .none

/-- The reply to a statement, and the tables afterwards. A statement that fails changes
nothing. -/
def carryOut (t : Tables) (statement : Statement) : Reply × Tables :=
  match statement with
  | .ensureHead stream => (.table .none, { t with heads := t.heads.insertIfNew stream 0 })
  | .moveHead stream version =>
    (.table .none,
      if t.heads.contains stream then { t with heads := t.heads.insert stream version } else t)
  | .deleteHead stream => (.table .none, { t with heads := t.heads.erase stream })
  | .insertEvents rows =>
    match t.insertEvents rows with
    | .ok t => (.table .none, t)
    | .error failure => (.failed failure, t)
  | .insertMemberships rows =>
    match t.insertMemberships rows with
    | .ok (inserted, t) =>
      (.table ⟨[⟨"stream_version", .int8⟩, ⟨"position", .int8⟩], inserted.map placeCells⟩, t)
    | .error failure => (.failed failure, t)
  | .deleteMemberships stream =>
    (.table .none,
      { t with memberships := t.memberships.filter fun m => m.row.stream ≠ stream })
  | statement => (.table (t.reply statement), t)

end Tables

end EventLog.Postgres
