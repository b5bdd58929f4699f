/-
# Conversations with an event log

What is proved of a log is proved of every sequence of calls to it, so a call has to be
something that can be put in a list. `LogCall` has one constructor for each question that
writes to the log or asks where an event stands, and `LogAnswer` one for each kind of
answer; `converse` puts the calls to any log, in memory or in a database, one at a time.

Two properties of a conversation are assumed by some results and by no others. A draw is
`FreshFor` a store if the identifiers it gives to a batch are new there and differ from
each other, and `FreshAlong` asks that of every draw a conversation takes. An identifier is
a number below `16 ^ 32`, so no supply can promise this for ever: it is a property of the
finitely many draws of one run.
-/

import EventLog.Access.Memory

namespace EventLog

variable {ε : Type}

inductive LogCall (ε : Type) where
  | append (stream : String) (batch : List (Envelope ε)) (expected : Option Int)
  | link (stream : String) (ids : List Uuid) (expected : Option Int)
  | delete (stream : String)
  | hasEvent (id : Uuid)
  | streamOf (id : Uuid)
  | versionIn (stream : String) (id : Uuid)
  | inStream (stream : String) (id : Uuid)
  | lastVersion (stream : String)

inductive LogAnswer (ε : Type) where
  | stored (answer : Except Error (List (Envelope ε)))
  | version (answer : Except Error Int)
  | done (answer : Except Error Unit)
  | truth (answer : Except Error Bool)
  | stream (answer : Except Error (Option String))
  | place (answer : Except Error (Option Int))

namespace LogCall

/-- Put a call to a log. -/
def ask {m : Type → Type} [Functor m] (log : Access ε m) : LogCall ε → m (LogAnswer ε)
  | append stream batch expected => .stored <$> log.append stream batch expected
  | link stream ids expected => .version <$> log.link stream ids expected
  | delete stream => .done <$> log.delete stream
  | hasEvent id => .truth <$> log.hasEvent id
  | streamOf id => .stream <$> log.streamOf id
  | versionIn stream id => .place <$> log.versionIn stream id
  | inStream stream id => .truth <$> log.inStream stream id
  | lastVersion stream => .version <$> log.lastVersion stream

/-- How many identifiers a call draws. -/
def drawn : LogCall ε → Nat
  | append _ batch _ => batch.length
  | _ => 0

end LogCall

/-- Put calls to a log one after another: the answers, and the log afterwards. -/
def converse {σ : Type} (log : Access ε (StateM σ)) :
    List (LogCall ε) → σ → List (LogAnswer ε) × σ
  | [], state => ([], state)
  | call :: rest, state =>
    let (answer, state) := call.ask log state
    let (answers, state) := converse log rest state
    (answer :: answers, state)

/-- A conversation goes on where the one before it left the log. -/
theorem converse_append {σ : Type} (log : Access ε (StateM σ)) (first second : List (LogCall ε))
    (state : σ) :
    (converse log (first ++ second) state).2 =
      (converse log second (converse log first state).2).2 := by
  induction first generalizing state with
  | nil => rfl
  | cons call rest ih => exact ih _

/-- What every step keeps, a conversation keeps. -/
theorem converse_keeps {σ : Type} {log : Access ε (StateM σ)} {P : σ → Prop}
    (step : ∀ (call : LogCall ε) (state : σ), P state → P (call.ask log state).2)
    (calls : List (LogCall ε)) {state : σ} (h : P state) : P (converse log calls state).2 := by
  induction calls generalizing state with
  | nil => exact h
  | cons call rest ih => exact ih (step call state h)

/-- The first `n` identifiers of a draw are unknown to the store and pairwise different. -/
structure Draw.FreshFor (draw : Draw) (s : Store) (n : Nat) : Prop where
  unknown : ∀ i, i < n → s.hasEvent (draw.eventId i) = false
  distinct : ∀ i, i < n → ∀ j, j < n → draw.eventId i = draw.eventId j → i = j

/-- Every draw that the calls take is fresh when it is taken. -/
def FreshAlong [EventType ε] (supply : Nat → Draw) : List (LogCall ε) → Memory → Prop
  | [], _ => True
  | call :: rest, memory =>
    (supply memory.drawn).FreshFor memory.store call.drawn ∧
      FreshAlong supply rest (call.ask (Memory.access supply) memory).2

/-- A supply that counts: each draw has a thousand identifiers of its own. It shows that
freshness can be had, and is what results that assume it are tried on. -/
def countingSupply (n : Nat) : Draw where
  now := .epoch
  eventId i := .ofNat (1000 * n + i)
  correlationId i := .ofNat (1000 * n + i)

end EventLog
