/-
# What the database answers

A statement is answered by rows, possibly none, or by a failure. Rows come with the names
and types of their columns, and a value is taken out of a row only if its column is there,
has the wanted type and is not null. Every failure belongs to one of the error causes of
the library, by the class of its code.
-/

import EventLog.Error

namespace EventLog.Postgres

inductive ColumnType where
  | int8
  | int4
  | text
  | uuid
  | bool
deriving DecidableEq

inductive Cell where
  | null
  | int (value : Int)
  | text (value : String)
  | uuid (value : Uuid)
  | bool (value : Bool)
deriving DecidableEq

structure Column where
  name : String
  type : ColumnType
deriving DecidableEq

/-- Rows under the same columns. -/
structure Table where
  columns : List Column
  rows : List (List Cell)
deriving DecidableEq

/-- Done, and nothing to return. -/
def Table.none : Table := ⟨[], []⟩

inductive Failure where
  /-- The server refused the statement with this code. -/
  | state (code : String)
  /-- There is no connection. -/
  | unreachable
  /-- A row was needed and none came. -/
  | noRow
  /-- A value was missing, null or of another type. -/
  | badValue
deriving DecidableEq

inductive Reply where
  | table (rows : Table)
  | failed (failure : Failure)
deriving DecidableEq

namespace Failure

/-- The code begins with this class. -/
def inClass (code cls : String) : Bool := code.toList.take cls.length = cls.toList

/-- The error for a code: lost connections, serialization failures and deadlocks may pass,
refused credentials and privileges do not, and a cancelled statement is a cancellation. -/
def ofCode (code : String) : Error :=
  let cause := "database error " ++ code
  if inClass code "08" then .unavailable cause
  else if code = "40001" ∨ code = "40P01" then .unavailable cause
  else if inClass code "28" then .unauthorized cause
  else if code = "42501" then .unauthorized cause
  else if code = "57014" then .cancelled
  else .unexpected cause

def toError : Failure → Error
  | state code => ofCode code
  | unreachable => .unavailable "the connection pool is closed"
  | noRow => .unexpected "no rows returned"
  | badValue => .unexpected "a column could not be decoded"

/-- Another row has the same key already. -/
def isUniqueViolation : Failure → Bool
  | state code => code = "23505"
  | _ => false

end Failure

/-- How a value is taken out of a column. -/
abbrev Decoder (α : Type) := Column → Cell → Option α

def int8 : Decoder Int
  | ⟨_, .int8⟩, .int value => some value
  | _, _ => none

def textValue : Decoder String
  | ⟨_, .text⟩, .text value => some value
  | _, _ => none

def uuidValue : Decoder Uuid
  | ⟨_, .uuid⟩, .uuid value => some value
  | _, _ => none

def boolValue : Decoder Bool
  | ⟨_, .bool⟩, .bool value => some value
  | _, _ => none

/-- A row with its columns. -/
abbrev Row := List (Column × Cell)

def Table.labelled (t : Table) : List Row := t.rows.map fun cells => t.columns.zip cells

namespace Row

/-- The value of the column at `index`. -/
def at? {α : Type} (row : Row) (index : Nat) (decode : Decoder α) : Except Failure α :=
  match row[index]?.bind fun (column, cell) => decode column cell with
  | some value => .ok value
  | none => .error .badValue

/-- The value of the column of this name, the last one if there are several. -/
def named {α : Type} (row : Row) (name : String) (decode : Decoder α) : Except Failure α :=
  match (row.reverse.find? fun entry => entry.1.name = name).bind
      fun (column, cell) => decode column cell with
  | some value => .ok value
  | none => .error .badValue

end Row

end EventLog.Postgres
