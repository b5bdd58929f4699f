/-
# Events

An application declares its events as one type `ε` with a name, an encoding and a
decoding for each value. Whatever the application, a log also holds events that nobody has
decoded yet: a name and a payload, taken as they are. An `Event ε` is one or the other.

An application may be made up of several families of events. `Includes δ ε` says that the
events of family `δ` are among those of `ε`, under the same names and the same encoding;
what is written for a family works inside every application that includes it.
-/

import EventLog.Error

namespace EventLog

/-- The events of an application. Decoding starts from a value of the wanted kind, which
says what the payload is to be read as. -/
class EventType (ε : Type) where
  name : ε → String
  marshal : ε → Except Error String
  unmarshal : ε → String → Except Error ε

/-- The events of `δ` are among those of `ε`. -/
class Includes (δ ε : Type) [EventType δ] [EventType ε] where
  inject : δ → ε
  project : ε → Option δ
  project_eq_some_iff : ∀ e d, project e = some d ↔ e = inject d
  name_inject : ∀ d, EventType.name (inject d) = EventType.name d
  marshal_inject : ∀ d, EventType.marshal (inject d) = EventType.marshal d
  unmarshal_inject : ∀ d payload,
    EventType.unmarshal (inject d) payload = (EventType.unmarshal d payload).map inject

/-- Every application includes itself. -/
instance (ε : Type) [EventType ε] : Includes ε ε where
  inject := id
  project := some
  project_eq_some_iff := by simp
  name_inject _ := rfl
  marshal_inject _ := rfl
  unmarshal_inject d payload := by
    show EventType.unmarshal d payload = _
    cases EventType.unmarshal d payload <;> rfl

@[simp] theorem Includes.project_inject {δ ε : Type} [EventType δ] [EventType ε] [Includes δ ε]
    (d : δ) : Includes.project (Includes.inject (ε := ε) d) = some d :=
  (Includes.project_eq_some_iff _ d).mpr rfl

/-- An event of the application, or one that has not been decoded. -/
inductive Event (ε : Type) where
  | typed (event : ε)
  | raw (name payload : String)
deriving DecidableEq

namespace Event

variable {ε : Type} [EventType ε]

def name : Event ε → String
  | typed event => EventType.name event
  | raw name _ => name

/-- The payload text. An undecoded event has it as it was read. -/
def marshal : Event ε → Except Error String
  | typed event => EventType.marshal event
  | raw _ payload => .ok payload

/-- The event with the payload read into it. An undecoded event takes any payload. -/
def unmarshal : Event ε → String → Except Error (Event ε)
  | typed event, payload => (EventType.unmarshal event payload).map typed
  | raw name _, payload => .ok (raw name payload)

/-- The decoded event, if it is one of family `δ`. -/
def data? (δ : Type) [EventType δ] [Includes δ ε] : Event ε → Option δ
  | typed event => Includes.project event
  | raw _ _ => none

@[simp] theorem name_raw (name payload : String) :
    (raw name payload : Event ε).name = name := rfl

@[simp] theorem marshal_raw (name payload : String) :
    (raw name payload : Event ε).marshal = .ok payload := rfl

@[simp] theorem data?_raw (δ : Type) [EventType δ] [Includes δ ε] (name payload : String) :
    (raw name payload : Event ε).data? δ = none := rfl

@[simp] theorem data?_typed_inject {δ : Type} [EventType δ] [Includes δ ε] (d : δ) :
    (typed (Includes.inject d) : Event ε).data? δ = some d :=
  Includes.project_inject d

end Event

end EventLog
