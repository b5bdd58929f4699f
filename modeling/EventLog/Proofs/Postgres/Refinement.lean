/-
# The log in a database answers as the log in memory

A connection to a database is a server and the number of draws that have been taken, as the
log in memory is a store and that number; each append takes the next draw of the supply, in
both alike. `Connection.access` runs the programs of the database one after another on the
server of `Postgres.Server`: one that holds the three tables, gives its statements their
SQL meaning, keeps a transaction apart until it is committed and numbers memberships in
the order in which they come in.

Two things a real server may do have no place in this one. It refuses event names of more
than 255 characters and texts with a NUL, and it may fail for reasons of its own. The log
in memory has neither, so what is compared here is a server that was given neither.
-/

import EventLog.Access.Postgres
import EventLog.Order.Event
import EventLog.Proofs.Postgres.Mirror

namespace EventLog.Postgres

variable {ε : Type} [EventType ε]

/-- A server and how many draws have been taken from the supply. -/
structure Connection where
  server : Server
  drawn : Nat

namespace Connection

/-- A server with empty tables. -/
def empty : Connection := ⟨.empty, 0⟩

/-- Run a program to its end. -/
def perform {α : Type} (program : Program α) : StateM Connection (Except Error α) :=
  fun connection =>
    let (answer, server) := program.runOn connection.server
    (answer, { connection with server })

/-- Access to the log over a connection. An append takes the next draw whether it succeeds
or not; nothing else takes one. -/
def access (supply : Nat → Draw) : Access ε (StateM Connection) :=
  { Postgres.access (supply 0) perform with
    append := fun stream batch expected connection =>
      (Postgres.access (supply connection.drawn) perform).append stream batch expected
        { connection with drawn := connection.drawn + 1 } }

/-- No transaction is open, the tables mirror the store, and as many draws have been taken
on either side. -/
structure Matches (memory : Memory) (connection : Connection) : Prop where
  idle : connection.server.pending = none
  mirrors : Mirrors memory.store connection.server.committed
  drawn : connection.drawn = memory.drawn

theorem matches_empty : Matches .empty empty := ⟨rfl, .empty, rfl⟩

/-- A call that is answered alike and leaves log and connection matching. -/
def Agrees {α : Type} (inMemory : α × Memory) (inDatabase : α × Connection) : Prop :=
  inMemory.1 = inDatabase.1 ∧ Matches inMemory.2 inDatabase.2

variable {memory : Memory} {connection : Connection}

namespace Matches

variable (h : Matches memory connection)

include h

theorem server_eq : connection.server = ⟨connection.server.committed, none⟩ := by
  rw [← h.idle]

/-- A lookup that leaves the server alone. -/
theorem agrees_look {α : Type} (question : Store → α) {program : Program α}
    (hanswer : program.runOn ⟨connection.server.committed, none⟩ =
      (.ok (question memory.store), ⟨connection.server.committed, none⟩)) :
    Agrees (Memory.look question memory) (perform program connection) := by
  rw [← h.server_eq] at hanswer
  rw [perform, hanswer]
  exact ⟨rfl, h⟩

/-- A write that goes in the database as in the store. -/
theorem agrees_write {α : Type} (change : Store → Except Error (α × Store))
    {program : Program α}
    (hfollows : Write.Follows connection.server.committed
      (program.runOn ⟨connection.server.committed, none⟩) (change memory.store)) :
    Agrees (Memory.write change memory) (perform program connection) := by
  rw [← h.server_eq] at hfollows
  rw [Memory.write, perform]
  cases hchange : change memory.store with
  | error e =>
      rw [hchange] at hfollows
      rw [show program.runOn connection.server = _ from hfollows]
      exact ⟨rfl, rfl, h.mirrors, h.drawn⟩
  | ok result =>
      rw [hchange] at hfollows
      obtain ⟨u, houtcome, hmirrors⟩ := hfollows
      rw [houtcome]
      exact ⟨rfl, rfl, hmirrors, h.drawn⟩

variable {supply : Nat → Draw}

/-- An append, which takes a draw on either side. -/
theorem agrees_append (stream : String) {batch : List (Envelope ε)} (expected : Option Int)
    (fresh : (supply memory.drawn).FreshFor memory.store batch.length) :
    Agrees ((Memory.access supply).append stream batch expected memory)
      ((access supply).append stream batch expected connection) := by
  have hfollows := h.mirrors.follows_append stream expected fresh
  show Agrees (memory.append supply stream batch expected)
    (perform (append (supply connection.drawn) stream batch expected)
      { connection with drawn := connection.drawn + 1 })
  rw [Memory.append, perform, h.drawn]
  rw [← h.server_eq] at hfollows
  cases hstore : memory.store.append (supply memory.drawn) stream batch expected with
  | error e =>
      rw [hstore] at hfollows
      rw [show (append _ _ _ _).runOn connection.server = _ from hfollows]
      exact ⟨rfl, rfl, h.mirrors, rfl⟩
  | ok result =>
      rw [hstore] at hfollows
      obtain ⟨u, houtcome, hmirrors⟩ := hfollows
      rw [houtcome]
      exact ⟨rfl, rfl, hmirrors, rfl⟩

/-- One call, whatever it is: the same answer, and the two still match. -/
theorem agrees_ask {call : LogCall ε}
    (fresh : (supply memory.drawn).FreshFor memory.store call.drawn) :
    Agrees (call.ask (Memory.access supply) memory) (call.ask (access supply) connection) := by
  cases call with
  | append stream batch expected =>
      obtain ⟨hanswer, hmatches⟩ := h.agrees_append stream expected fresh
      exact ⟨congrArg LogAnswer.stored hanswer, hmatches⟩
  | link stream ids expected =>
      obtain ⟨hanswer, hmatches⟩ := h.agrees_write (fun store => store.link stream ids expected)
        (h.mirrors.follows_link stream ids expected)
      exact ⟨congrArg LogAnswer.version hanswer, hmatches⟩
  | delete stream =>
      obtain ⟨hanswer, hmatches⟩ := h.agrees_write
        (fun store => (store.delete stream).map fun after => ((), after))
        (h.mirrors.follows_delete stream)
      exact ⟨congrArg LogAnswer.done hanswer, hmatches⟩
  | hasEvent id =>
      obtain ⟨hanswer, hmatches⟩ := h.agrees_look (fun store => store.hasEvent id)
        (h.mirrors.runOn_hasEvent id)
      exact ⟨congrArg LogAnswer.truth hanswer, hmatches⟩
  | streamOf id =>
      obtain ⟨hanswer, hmatches⟩ := h.agrees_look (fun store => store.streamOf id)
        (h.mirrors.runOn_streamOf id)
      exact ⟨congrArg LogAnswer.stream hanswer, hmatches⟩
  | versionIn stream id =>
      obtain ⟨hanswer, hmatches⟩ := h.agrees_look (fun store => store.versionIn stream id)
        (h.mirrors.runOn_versionIn stream id)
      exact ⟨congrArg LogAnswer.place hanswer, hmatches⟩
  | inStream stream id =>
      obtain ⟨hanswer, hmatches⟩ := h.agrees_look (fun store => store.inStream stream id)
        (h.mirrors.runOn_inStream stream id)
      exact ⟨congrArg LogAnswer.truth hanswer, hmatches⟩
  | lastVersion stream =>
      obtain ⟨hanswer, hmatches⟩ := h.agrees_look (fun store => store.lastVersion stream)
        (h.mirrors.runOn_lastVersion stream)
      exact ⟨congrArg LogAnswer.version hanswer, hmatches⟩

end Matches

/-- A whole conversation: the same answers, and log and connection match when it is over. -/
theorem agrees_converse {supply : Nat → Draw} {calls : List (LogCall ε)}
    (h : Matches memory connection) (fresh : FreshAlong supply calls memory) :
    Agrees (converse (Memory.access supply) calls memory)
      (converse (access supply) calls connection) := by
  induction calls generalizing memory connection with
  | nil => exact ⟨rfl, h⟩
  | cons call rest ih =>
      obtain ⟨hanswer, hmatches⟩ := h.agrees_ask fresh.1
      obtain ⟨hanswers, hlast⟩ := ih hmatches fresh.2
      exact ⟨congrArg₂ List.cons hanswer hanswers, hlast⟩

/-- Any sequence of calls, begun with empty tables and an empty store, gets the same answers
from the database as from memory, errors with their fields included, provided the supply
that both draw from gives fresh identifiers. -/
theorem answers_eq_in_memory (supply : Nat → Draw) (calls : List (LogCall ε))
    (fresh : FreshAlong supply calls .empty) :
    (converse (access supply) calls empty).1 =
      (converse (Memory.access supply) calls .empty).1 :=
  (agrees_converse matches_empty fresh).1.symm

/-- Two notes stored, one of them linked to another stream and its own stream deleted. -/
theorem answers_eq_in_memory_notes :
    let note (text : String) : Envelope OrderEvent := .fresh "agg" (.raw "Noted" text)
    let calls : List (LogCall OrderEvent) :=
      [.append "s" [note "1", note "2"] (some 0), .append "s" [] (some 1),
        .link "t" [(countingSupply 0).eventId 1] none, .delete "s",
        .streamOf ((countingSupply 0).eventId 1), .append "s" [note "3"] none]
    FreshAlong countingSupply calls .empty ∧
      (converse (access countingSupply) calls empty).1 =
        (converse (Memory.access countingSupply) calls .empty).1 := by
  intro note calls
  have hfresh : FreshAlong countingSupply calls .empty := by
    refine ⟨⟨?_, ?_⟩, ⟨?_, ?_⟩, ⟨?_, ?_⟩, ⟨?_, ?_⟩, ⟨?_, ?_⟩, ⟨?_, ?_⟩, trivial⟩ <;> decide
  exact ⟨hfresh, answers_eq_in_memory countingSupply calls hfresh⟩

end Connection

end EventLog.Postgres
