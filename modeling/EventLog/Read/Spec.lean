/-
# What to read

A read is always of one stream. It may be narrowed by time of storing, by position in the
log and to certain events, all bounds included; it goes up or down the versions and may
stop early. `ReadSpec.admits` is the meaning of the filters, and every backend answers to
it.
-/

import EventLog.Timestamp.Basic
import EventLog.Uuid

namespace EventLog

inductive ReadDirection where
  | forward
  | backward
deriving DecidableEq

structure ReadSpec where
  stream : String
  fromTime : Option Timestamp
  toTime : Option Timestamp
  fromPosition : Option Int
  toPosition : Option Int
  direction : ReadDirection
  limit : Option Nat
  eventIds : Option (List Uuid)
deriving DecidableEq

namespace ReadSpec

/-- All of a stream, in order. -/
def whole (stream : String) : ReadSpec :=
  ⟨stream, none, none, none, none, .forward, none, none⟩

/-- A bound that is not set holds of everything. -/
def holdsOf {α : Type} (bound : Option α) (p : α → Bool) : Bool :=
  match bound with
  | some b => p b
  | none => true

/-- An event at this position, stored at this time, is to be read. -/
def admits (spec : ReadSpec) (position : Int) (createdAt : Timestamp) (id : Uuid) : Bool :=
  holdsOf spec.fromTime (fun t => t ≤ createdAt) &&
  holdsOf spec.toTime (fun t => createdAt ≤ t) &&
  holdsOf spec.fromPosition (fun p => p ≤ position) &&
  holdsOf spec.toPosition (fun p => position ≤ p) &&
  holdsOf spec.eventIds (fun ids => ids.contains id)

/-- Put what is read in version order into the direction of the read. -/
def directed {α : Type} (spec : ReadSpec) (members : List α) : List α :=
  match spec.direction with
  | .forward => members
  | .backward => members.reverse

/-- Stop at the limit. -/
def limited {α : Type} (spec : ReadSpec) (members : List α) : List α :=
  match spec.limit with
  | some k => members.take k
  | none => members

@[simp] theorem admits_whole (stream : String) (position : Int) (createdAt : Timestamp)
    (id : Uuid) : (whole stream).admits position createdAt id = true := rfl

@[simp] theorem directed_whole {α : Type} (stream : String) (members : List α) :
    (whole stream).directed members = members := rfl

@[simp] theorem limited_whole {α : Type} (stream : String) (members : List α) :
    (whole stream).limited members = members := rfl

end ReadSpec

end EventLog
