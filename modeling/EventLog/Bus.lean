/-
# The bus

Handlers subscribe to events by name. A handler is subscribed to a name at most once,
however often it asks, and publishing an event calls the handlers that were subscribed
when publishing began: a handler may subscribe others while it is being called, and those
are called from the next event on.

A handler is known by its identity `η`. What handlers do is given from outside: being
called with an envelope changes the state `ω` of the listeners and may ask for further
subscriptions.
-/

import EventLog.Envelope
import EventLog.Text.Quoted

namespace EventLog

/-- Which handlers are subscribed to each event name, in order of subscription. -/
structure Bus (η : Type) where
  subscribers : Dictionary String (List η)

/-- What a handler does with an envelope: the listeners afterwards, and the handlers it
subscribes to further names. -/
abbrev Reaction (ε η ω : Type) := η → Envelope ε → ω → ω × List (η × List String)

namespace Bus

variable {ε η ω : Type} [DecidableEq η]

def empty : Bus η := ⟨.empty⟩

def handlersOf (bus : Bus η) (name : String) : List η :=
  (bus.subscribers.get? name).getD []

/-- How many handlers are subscribed to a name. -/
def handlerCount (bus : Bus η) (name : String) : Nat := (bus.handlersOf name).length

/-- Subscribe `handler` to one name. -/
def subscribeTo (bus : Bus η) (handler : η) (name : String) : Bus η :=
  let present := bus.handlersOf name
  ⟨bus.subscribers.insert name (if handler ∈ present then present else present ++ [handler])⟩

/-- Subscribe `handler` to every one of these names. -/
def subscribe (bus : Bus η) (handler : η) (names : List String) : Bus η :=
  names.foldl (fun bus name => bus.subscribeTo handler name) bus

/-- Call one handler and carry out the subscriptions it asks for. -/
def call (react : Reaction ε η ω) (envelope : Envelope ε) (state : Bus η × ω) (handler : η) :
    Bus η × ω :=
  let (listeners, wanted) := react handler envelope state.2
  (wanted.foldl (fun bus want => bus.subscribe want.1 want.2) state.1, listeners)

/-- Call the handlers subscribed to the envelope's event name at this moment. -/
def publish [EventType ε] (react : Reaction ε η ω) (envelope : Envelope ε)
    (state : Bus η × ω) : Bus η × ω :=
  (state.1.handlersOf envelope.eventName).foldl (call react envelope) state

/-- Publish several envelopes in order. -/
def publishAll [EventType ε] (react : Reaction ε η ω) (envelopes : List (Envelope ε))
    (state : Bus η × ω) : Bus η × ω :=
  envelopes.foldl (fun state envelope => publish react envelope state) state

/-- The names with the number of their handlers, for diagnostics. -/
def describe (bus : Bus η) : String :=
  "\x7b" ++ String.intercalate ", "
    (bus.subscribers.entries.map fun entry =>
      Text.quoted entry.1 ++ ": " ++ String.ofList (Text.Numeral.decimal entry.2.length)) ++
    "\x7d"

theorem handlersOf_subscribeTo (bus : Bus η) (handler : η) (name name' : String) :
    (bus.subscribeTo handler name).handlersOf name' =
      if name = name' ∧ handler ∉ bus.handlersOf name then bus.handlersOf name' ++ [handler]
      else bus.handlersOf name' := by
  by_cases h : name = name'
  · subst h
    by_cases hm : handler ∈ bus.handlersOf name <;>
      simp [subscribeTo, handlersOf] <;> simp_all [handlersOf]
  · simp [subscribeTo, handlersOf, Dictionary.get?_insert, h]

end Bus

end EventLog
