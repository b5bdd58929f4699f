/-
# Asking for a read

A query is put together from settings, each of which may be given again and then
replaces the earlier one. Only when it is answered is it checked: an upper bound needs
its lower bound, and a stream has to be named. A query that fails the check never reaches
the backend; one that passes reaches it once.

The backend is handed in as the function that answers a checked read, in whatever monad it
works, so the same queries serve a value in memory and a conversation with a server.
-/

import EventLog.Envelope
import EventLog.Read.Spec
import EventLog.Text.Quoted
import EventLog.Timestamp.Printer

namespace EventLog

/-- One setting of a query. -/
inductive ReadSetting where
  | stream (id : String)
  | fromTime (time : Timestamp)
  | toTime (time : Timestamp)
  | fromPosition (position : Int)
  | toPosition (position : Int)
  | direction (direction : ReadDirection)
  | limit (count : Nat)
deriving DecidableEq

/-- The settings so far. -/
structure ReadQuery where
  stream : Option String
  fromTime : Option Timestamp
  toTime : Option Timestamp
  fromPosition : Option Int
  toPosition : Option Int
  direction : ReadDirection
  limit : Option Nat
deriving DecidableEq

/-- A stream has a name that is not empty. -/
def requireStreamId (stream : String) : Except Error Unit :=
  if stream = "" then .error .emptyStreamId else .ok ()

namespace ReadQuery

/-- No settings; reads go forward. -/
def empty : ReadQuery := ⟨none, none, none, none, none, .forward, none⟩

def set (q : ReadQuery) : ReadSetting → ReadQuery
  | .stream id => { q with stream := some id }
  | .fromTime time => { q with fromTime := some time }
  | .toTime time => { q with toTime := some time }
  | .fromPosition position => { q with fromPosition := some position }
  | .toPosition position => { q with toPosition := some position }
  | .direction direction => { q with direction := direction }
  | .limit count => { q with limit := some count }

def ofSettings (settings : List ReadSetting) : ReadQuery := settings.foldl set empty

/-- The read these settings ask for. -/
def build (q : ReadQuery) : Except Error ReadSpec :=
  if q.toTime.isSome ∧ q.fromTime.isNone then .error .toTimeWithoutFromTime
  else if q.toPosition.isSome ∧ q.fromPosition.isNone then .error .toIdWithoutFromId
  else match q.stream with
    | none => .error .missingStream
    | some stream =>
      match requireStreamId stream with
      | .error e => .error e
      | .ok () =>
        .ok ⟨stream, q.fromTime, q.toTime, q.fromPosition, q.toPosition, q.direction, q.limit,
          none⟩

/-- The settings of a query for the latest event of `stream`. Other filters stay. -/
def latestOf (q : ReadQuery) (stream : String) : ReadQuery :=
  ((q.set (.stream stream)).set (.direction .backward)).set (.limit 1)

section Answers

variable {ε : Type} {m : Type → Type} [Monad m]

/-- Answer a checked read, or say why there is none to answer. -/
def answer {α : Type} (q : ReadQuery) (ask : ReadSpec → m (Except Error α)) :
    m (Except Error α) :=
  match q.build with
  | .error e => pure (.error e)
  | .ok spec => ask spec

def toList (q : ReadQuery) (ask : ReadSpec → m (Except Error (List (Envelope ε)))) :
    m (Except Error (List (Envelope ε))) :=
  q.answer ask

def count (q : ReadQuery) (ask : ReadSpec → m (Except Error Nat)) : m (Except Error Nat) :=
  q.answer ask

/-- The first of what is read. -/
def first (q : ReadQuery) (ask : ReadSpec → m (Except Error (List (Envelope ε)))) :
    m (Except Error (Option (Envelope ε))) := do
  return (← q.answer ask).map List.head?

/-- The latest event of `stream` that passes the other filters. -/
def last (q : ReadQuery) (stream : String)
    (ask : ReadSpec → m (Except Error (List (Envelope ε)))) :
    m (Except Error (Option (Envelope ε))) :=
  (q.latestOf stream).first ask

/-- The first occurrence of one event. A limit set before does not matter. -/
def event (q : ReadQuery) (id : Uuid) (ask : ReadSpec → m (Except Error (List (Envelope ε)))) :
    m (Except Error (Option (Envelope ε))) :=
  q.first fun spec => ask { spec with eventIds := some [id], limit := some 1 }

/-- The occurrences of these events. -/
def events (q : ReadQuery) (ids : List Uuid)
    (ask : ReadSpec → m (Except Error (List (Envelope ε)))) :
    m (Except Error (List (Envelope ε))) :=
  q.answer fun spec => ask { spec with eventIds := some ids }

end Answers

/-- An optional setting in a description. -/
def describeOption {α : Type} (show_ : α → String) : Option α → String
  | none => "None"
  | some a => "Some(" ++ show_ a ++ ")"

def describeInt (n : Int) : String := String.ofList (Text.Numeral.integer n)

/-- The settings, for diagnostics. -/
def describe (q : ReadQuery) : String :=
  "ReadQuery \x7b stream_id: " ++ describeOption Text.quoted q.stream ++
    ", from_time: " ++ describeOption Timestamp.text q.fromTime ++
    ", to_time: " ++ describeOption Timestamp.text q.toTime ++
    ", from_id: " ++ describeOption describeInt q.fromPosition ++
    ", to_id: " ++ describeOption describeInt q.toPosition ++
    ", direction: " ++ (match q.direction with
      | .forward => "Forward"
      | .backward => "Backward") ++
    ", limit: " ++ describeOption (fun n : Nat => describeInt n) q.limit ++ " \x7d"

end ReadQuery

end EventLog
