/-
# The statements sent to the database

Event bodies, stream heads and memberships are three tables. These are all the statements
that are ever sent about them, each with the values it needs; the text has a placeholder
for every value, numbered in the order of the values.
-/

import EventLog.Postgres.Select

namespace EventLog.Postgres

/-- A row for the table of event bodies. -/
structure EventRow where
  eventId : Uuid
  name : String
  payload : String
  metadata : String
  createdAt : Timestamp
deriving DecidableEq

/-- A row for the table of memberships; the database adds the position. -/
structure MembershipRow where
  stream : String
  version : Int
  eventId : Uuid
deriving DecidableEq

inductive Statement where
  | createEvents
  | createHeads
  | createMemberships
  | createMembershipIndex
  | begin
  | commit
  /-- Make sure the stream has a head. -/
  | ensureHead (stream : String)
  /-- Read the head and keep others from changing it. -/
  | lockHead (stream : String)
  | moveHead (stream : String) (version : Int)
  | deleteHead (stream : String)
  | headVersion (stream : String)
  | insertEvents (rows : List EventRow)
  | knownEvents (ids : List Uuid)
  | eventExists (id : Uuid)
  /-- Insert memberships and return their versions and positions. -/
  | insertMemberships (rows : List MembershipRow)
  | deleteMemberships (stream : String)
  /-- The stream of an event's earliest membership. -/
  | streamOf (id : Uuid)
  /-- The highest version of an event in a stream. -/
  | versionIn (stream : String) (id : Uuid)
  | select (read : Select)
  | count (read : Select)
deriving DecidableEq

namespace EventRow

def params (row : EventRow) : List Param :=
  [.uuid row.eventId, .text row.name, .text row.payload, .text row.metadata,
    .time row.createdAt]

end EventRow

namespace MembershipRow

def params (row : MembershipRow) : List Param :=
  [.text row.stream, .int row.version, .uuid row.eventId]

end MembershipRow

namespace Statement

/-- One row of placeholders, counting on from `n`. -/
def placeholderRow (n width : Nat) : String :=
  "(" ++ String.intercalate ", "
    ((List.range width).map fun i => Select.placeholderText (n + i + 1)) ++ ")"

/-- Rows of placeholders for a table of `rows` rows. -/
def placeholderRows (rows width : Nat) : String :=
  String.intercalate ", " ((List.range rows).map fun row => placeholderRow (row * width) width)

def text : Statement → String
  | createEvents =>
    "CREATE TABLE IF NOT EXISTS es_event_store ( id BIGSERIAL PRIMARY KEY, " ++
      "event_id UUID NOT NULL UNIQUE, event_name VARCHAR(255) NOT NULL, " ++
      "event_data TEXT NOT NULL, metadata TEXT NOT NULL, " ++
      "created_at TIMESTAMPTZ NOT NULL DEFAULT now() )"
  | createHeads =>
    "CREATE TABLE IF NOT EXISTS es_stream_heads ( stream_id TEXT PRIMARY KEY, " ++
      "last_version BIGINT NOT NULL DEFAULT 0 )"
  | createMemberships =>
    "CREATE TABLE IF NOT EXISTS es_event_streams ( position BIGSERIAL PRIMARY KEY, " ++
      "stream_id TEXT NOT NULL, stream_version BIGINT NOT NULL, " ++
      "event_id UUID NOT NULL REFERENCES es_event_store (event_id), " ++
      "UNIQUE (stream_id, stream_version) )"
  | createMembershipIndex =>
    "CREATE INDEX IF NOT EXISTS es_event_streams_by_event ON es_event_streams (event_id)"
  | begin => "BEGIN"
  | commit => "COMMIT"
  | ensureHead _ =>
    "INSERT INTO es_stream_heads (stream_id, last_version) VALUES ($1, 0) " ++
      "ON CONFLICT (stream_id) DO NOTHING"
  | lockHead _ => "SELECT last_version FROM es_stream_heads WHERE stream_id = $1 FOR UPDATE"
  | moveHead _ _ => "UPDATE es_stream_heads SET last_version = $1 WHERE stream_id = $2"
  | deleteHead _ => "DELETE FROM es_stream_heads WHERE stream_id = $1"
  | headVersion _ => "SELECT last_version FROM es_stream_heads WHERE stream_id = $1"
  | insertEvents rows =>
    "INSERT INTO es_event_store (event_id, event_name, event_data, metadata, created_at) " ++
      "VALUES " ++ placeholderRows rows.length 5
  | knownEvents _ => "SELECT event_id FROM es_event_store WHERE event_id = ANY($1)"
  | eventExists _ => "SELECT EXISTS (SELECT 1 FROM es_event_store WHERE event_id = $1)"
  | insertMemberships rows =>
    "INSERT INTO es_event_streams (stream_id, stream_version, event_id) VALUES " ++
      placeholderRows rows.length 3 ++ " RETURNING stream_version, position"
  | deleteMemberships _ => "DELETE FROM es_event_streams WHERE stream_id = $1"
  | streamOf _ =>
    "SELECT stream_id FROM es_event_streams WHERE event_id = $1 ORDER BY position ASC LIMIT 1"
  | versionIn _ _ =>
    "SELECT stream_version FROM es_event_streams WHERE stream_id = $1 AND event_id = $2 " ++
      "ORDER BY stream_version DESC LIMIT 1"
  | select read =>
    "SELECT s.stream_version, s.position, e.event_id, e.event_name, e.event_data, " ++
      "e.metadata " ++ read.text
  | count read => "SELECT COUNT(*) FROM (SELECT s.position " ++ read.text ++ ") t"

/-- The values of the placeholders, in order. -/
def params : Statement → List Param
  | ensureHead stream => [.text stream]
  | lockHead stream => [.text stream]
  | moveHead stream version => [.int version, .text stream]
  | deleteHead stream => [.text stream]
  | headVersion stream => [.text stream]
  | insertEvents rows => rows.flatMap EventRow.params
  | knownEvents ids => [.uuids ids]
  | eventExists id => [.uuid id]
  | insertMemberships rows => rows.flatMap MembershipRow.params
  | deleteMemberships stream => [.text stream]
  | streamOf id => [.uuid id]
  | versionIn stream id => [.text stream, .uuid id]
  | select read => read.params
  | count read => read.params
  | _ => []

end Statement

end EventLog.Postgres
