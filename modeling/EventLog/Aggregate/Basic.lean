/-
# Aggregates

An aggregate is a state derived from its events and the bookkeeping around it: the version
up to which its stream has been applied or saved, the version after its pending changes,
and those changes. Commands never touch the state; they raise events, and every event,
new or replayed, goes through the transition table of the type.

A failing step returns no aggregate, so it leaves the one it was tried on as it was. The
exception is a replay, which stops at the first event that is refused and keeps what came
before it.
-/

import EventLog.Aggregate.Transitions
import EventLog.Envelope

namespace EventLog

/-- A kind of aggregate: the name by which its streams are found, the state before any
event, and the transitions. -/
structure AggregateType (ε σ : Type) where
  name : String
  initial : σ
  transitions : Transitions ε σ

structure Aggregate (ε σ : Type) where
  id : String
  /-- The version of the stream that the state rests on. -/
  originalVersion : Int
  /-- The version after the pending changes. -/
  currentVersion : Int
  /-- Events raised and not yet saved, in order. -/
  changes : List (Envelope ε)
  state : σ

namespace Aggregate

variable {ε σ : Type} [EventType ε]

/-- An aggregate without history. -/
def new (type : AggregateType ε σ) (id : String) : Aggregate ε σ :=
  ⟨id, 0, 0, [], type.initial⟩

/-- Apply an envelope. A new one also becomes a pending change. -/
def apply (type : AggregateType ε σ) (a : Aggregate ε σ) (envelope : Envelope ε)
    (isNew : Bool) : Except Error (Aggregate ε σ) :=
  match type.transitions.apply envelope.event a.state with
  | .error e => .error e
  | .ok state =>
    if isNew then
      .ok { a with
        state, changes := a.changes ++ [envelope], currentVersion := a.currentVersion + 1 }
    else .ok { a with state }

/-- Apply one envelope of history: both versions move, since it is stored already. -/
def replayOne (type : AggregateType ε σ) (a : Aggregate ε σ) (envelope : Envelope ε) :
    Except Error (Aggregate ε σ) :=
  (a.apply type envelope false).map fun a =>
    { a with currentVersion := a.currentVersion + 1, originalVersion := a.currentVersion + 1 }

/-- Apply history in order, up to the first envelope that is refused. -/
def rebuild (type : AggregateType ε σ) (a : Aggregate ε σ) :
    List (Envelope ε) → Except Error Unit × Aggregate ε σ
  | [] => (.ok (), a)
  | envelope :: rest =>
    match a.replayOne type envelope with
    | .error e => (.error e, a)
    | .ok a => a.rebuild type rest

/-- Apply a fresh event as a pending change. -/
def raise (type : AggregateType ε σ) (a : Aggregate ε σ) (event : ε) :
    Except Error (Aggregate ε σ) :=
  a.apply type (.fresh a.id (.typed event)) true

/-- Forget the pending changes. State and versions stay. -/
def clearChanges (a : Aggregate ε σ) : Aggregate ε σ := { a with changes := [] }

/-- The pending changes have been saved. The aggregate now rests on what it has applied
itself, which is less than the stream holds if others wrote in between. -/
def markSaved (a : Aggregate ε σ) (version : Int) : Aggregate ε σ :=
  { a with changes := [], originalVersion := version, currentVersion := version }

/-- An aggregate of the same identity, rebuilt from the pending changes alone. -/
def replayChanges (type : AggregateType ε σ) (a : Aggregate ε σ) :
    Except Error Unit × Aggregate ε σ :=
  (new type a.id).rebuild type a.changes

end Aggregate

end EventLog
