/-
# The catalog of event types

A stored event is a name and a payload. The catalog holds, under each name it knows, the
blank event into which such a payload is read. The first registration of a name stands; a
later one is refused and changes nothing.
-/

import EventLog.Envelope
import EventLog.Text.Quoted

namespace EventLog

/-- Blank events under the names by which stored ones are decoded. -/
structure EventCatalog (ε : Type) where
  blanks : Dictionary String (Event ε)

namespace EventCatalog

variable {ε : Type} [EventType ε]

def empty : EventCatalog ε := ⟨.empty⟩

def isRegistered (c : EventCatalog ε) (name : String) : Bool := c.blanks.contains name

/-- Decode events called `name` into `blank`. -/
def registerAs (c : EventCatalog ε) (name : String) (blank : Event ε) :
    Except Error (EventCatalog ε) :=
  if c.isRegistered name then .error (.alreadyRegistered name)
  else .ok ⟨c.blanks.insert name blank⟩

/-- Decode events into `blank` under its own name. -/
def register (c : EventCatalog ε) (blank : Event ε) : Except Error (EventCatalog ε) :=
  c.registerAs blank.name blank

/-- Register one after the other and stop at the first that is refused; what was registered
before it stays. -/
def registerAll (c : EventCatalog ε) : List (Event ε) → Except Error Unit × EventCatalog ε
  | [] => (.ok (), c)
  | blank :: rest =>
    match c.register blank with
    | .ok c => c.registerAll rest
    | .error e => (.error e, c)

/-- The blank event for a name. -/
def get? (c : EventCatalog ε) (name : String) : Option (Event ε) := c.blanks.get? name

/-- The event that a stored name and payload stand for. -/
def decode (c : EventCatalog ε) (name payload : String) : Except Error (Event ε) :=
  match c.get? name with
  | some blank => blank.unmarshal payload
  | none => .error (.unknownEventType name)

/-- The names in the catalog, for diagnostics. -/
def describe (c : EventCatalog ε) : String :=
  "EventFactory \x7b events: [" ++
    String.intercalate ", " (c.blanks.keys.map Text.quoted) ++ "] \x7d"

end EventCatalog

end EventLog
