/-
# Reads as SQL

A read becomes one SELECT whose conditions depend on which filters are set. The text of
the statement holds no value: a condition refers to its value by the number of a
placeholder, and the values are bound separately, in the order in which they were asked
for. A `Select` keeps both together, so that what a placeholder stands for can be looked
up.
-/

import EventLog.Read.Spec
import EventLog.Text.Numeral

namespace EventLog.Postgres

/-- A value bound to a placeholder. -/
inductive Param where
  | int (value : Int)
  | text (value : String)
  | uuid (value : Uuid)
  | uuids (values : List Uuid)
  | time (value : Timestamp)
deriving DecidableEq

/-- The largest number an eight-byte integer holds. -/
def maxInt8 : Nat := Int64.maxValue.toInt.toNat

/-- What a condition compares with its placeholder. -/
inductive Filter where
  | storedSince
  | storedUntil
  | positionFrom
  | positionTo
  | eventAmong
deriving DecidableEq

/-- A filter and the number of its placeholder. -/
structure Condition where
  filter : Filter
  placeholder : Nat
deriving DecidableEq

/-- A read of one stream. Placeholders count from 1. -/
structure Select where
  stream : Nat
  conditions : List Condition
  direction : ReadDirection
  limit : Option Nat
  params : List Param
deriving DecidableEq

namespace Select

/-- The value a placeholder stands for. -/
def valueOf (s : Select) (placeholder : Nat) : Option Param :=
  if placeholder = 0 then none else s.params[placeholder - 1]?

/-- All of the stream. -/
def ofStream (stream : String) (direction : ReadDirection) : Select :=
  ⟨1, [], direction, none, [.text stream]⟩

/-- Add a condition for a filter that is set. -/
def restrict (s : Select) (filter : Filter) : Option Param → Select
  | none => s
  | some value =>
    { s with
      conditions := s.conditions ++ [⟨filter, s.params.length + 1⟩]
      params := s.params ++ [value] }

/-- Stop early. A limit that no eight-byte integer holds is no limit in effect. -/
def limitTo (s : Select) : Option Nat → Select
  | none => s
  | some limit =>
    { s with
      limit := some (s.params.length + 1)
      params := s.params ++ [.int (min limit maxInt8)] }

def ofSpec (spec : ReadSpec) : Select :=
  ((((((ofStream spec.stream spec.direction).restrict .storedSince (spec.fromTime.map .time)
    ).restrict .storedUntil (spec.toTime.map .time)
    ).restrict .positionFrom (spec.fromPosition.map .int)
    ).restrict .positionTo (spec.toPosition.map .int)
    ).restrict .eventAmong (spec.eventIds.map .uuids)
    ).limitTo spec.limit

/-- How a placeholder is written. -/
def placeholderText (n : Nat) : String := "$" ++ String.ofList (Text.Numeral.decimal n)

def conditionText (c : Condition) : String :=
  let value := placeholderText c.placeholder
  match c.filter with
  | .storedSince => " AND e.created_at >= " ++ value
  | .storedUntil => " AND e.created_at <= " ++ value
  | .positionFrom => " AND s.position >= " ++ value
  | .positionTo => " AND s.position <= " ++ value
  | .eventAmong => " AND s.event_id = ANY(" ++ value ++ ")"

def directionText : ReadDirection → String
  | .forward => " ORDER BY s.stream_version ASC"
  | .backward => " ORDER BY s.stream_version DESC"

def limitText : Option Nat → String
  | some n => " LIMIT " ++ placeholderText n
  | none => ""

/-- Everything after the list of columns. -/
def text (s : Select) : String :=
  "FROM es_event_streams s JOIN es_event_store e ON e.event_id = s.event_id " ++
    "WHERE s.stream_id = " ++ placeholderText s.stream ++
    String.join (s.conditions.map conditionText) ++ directionText s.direction ++
    limitText s.limit

end Select

end EventLog.Postgres
