/-
# Transition tables

How an event changes the state of an aggregate is looked up by the event's name. A table
entry also says which events it can take: an event of the right name that is not of the
right kind, in particular one that has not been decoded, is refused and not guessed at.
An event whose name has no entry is an error too, never a silent no-op.
-/

import EventLog.Dictionary
import EventLog.Event

namespace EventLog

/-- How an event changes the state; `none` for an event of another kind. -/
abbrev Transition (ε σ : Type) := ε → Option (σ → σ)

/-- The transitions of one aggregate type, under event names. -/
structure Transitions (ε σ : Type) where
  aggregateType : String
  entries : Dictionary String (Transition ε σ)

namespace Transitions

variable {ε σ : Type}

def empty (aggregateType : String) : Transitions ε σ := ⟨aggregateType, .empty⟩

/-- Use `transition` for events of this name, in place of any earlier one. -/
def on (t : Transitions ε σ) (name : String) (transition : Transition ε σ) :
    Transitions ε σ :=
  { t with entries := t.entries.insert name transition }

def handles (t : Transitions ε σ) (name : String) : Bool := t.entries.contains name

/-- The error for an event whose name has no entry. -/
def noTransition (t : Transitions ε σ) (name : String) : Error :=
  .unexpected (t.aggregateType ++ " has no transition for event " ++ name)

/-- The error for an event that is not of the kind its entry takes. -/
def undecoded (t : Transitions ε σ) (name : String) : Error :=
  .unexpected (t.aggregateType ++ " received undecoded payload for event " ++ name)

/-- The change of state an event stands for. -/
def change? [EventType ε] (t : Transitions ε σ) (event : Event ε) : Except Error (σ → σ) :=
  match t.entries.get? event.name with
  | none => .error (t.noTransition event.name)
  | some transition =>
    match event with
    | .raw name _ => .error (t.undecoded name)
    | .typed data =>
      match transition data with
      | some change => .ok change
      | none => .error (t.undecoded (EventType.name data))

def apply [EventType ε] (t : Transitions ε σ) (event : Event ε) (state : σ) : Except Error σ :=
  (t.change? event).map fun change => change state

end Transitions

end EventLog
