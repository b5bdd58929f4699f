/-
# A server with transactions

Inside a transaction a program sees its own changes; outside, each statement takes effect
by itself. Nothing that happens inside is kept unless it is committed, and a rollback is
never refused. There is one connection, so programs take turns.
-/

import EventLog.Postgres.Program
import EventLog.Postgres.Tables

namespace EventLog.Postgres

structure Server where
  committed : Tables
  /-- What the open transaction sees, if one is open. -/
  pending : Option Tables

namespace Server

def empty : Server := ⟨.empty, none⟩

instance : Inhabited Server := ⟨empty⟩

def rollback (server : Server) : Server := { server with pending := none }

def carryOut (server : Server) : Statement → Reply × Server
  | .begin => (.table .none, { server with pending := some server.committed })
  | .commit => (.table .none, ⟨server.pending.getD server.committed, none⟩)
  | statement =>
    match server.pending with
    | some tables =>
      let (reply, tables) := tables.carryOut statement
      (reply, { server with pending := some tables })
    | none =>
      let (reply, tables) := server.committed.carryOut statement
      (reply, { server with committed := tables })

end Server

/-- Follow a program on this server. -/
def Program.runOn {α : Type} : Program α → Server → Except Error α × Server
  | .done answer, server => (answer, server)
  | .send statement next, server =>
    let (reply, server) := server.carryOut statement
    (next reply).runOn server
  | .rollback next, server => (next (.table .none)).runOn server.rollback

namespace Program

variable {α β : Type}

@[simp] theorem runOn_done (answer : Except Error α) (server : Server) :
    (done answer).runOn server = (answer, server) := rfl

@[simp] theorem runOn_send (statement : Statement) (next : Reply → Program α)
    (server : Server) :
    (send statement next).runOn server =
      (next (server.carryOut statement).1).runOn (server.carryOut statement).2 := rfl

@[simp] theorem runOn_rollback (next : Reply → Program α) (server : Server) :
    (rollback next).runOn server = (next (.table .none)).runOn server.rollback := rfl

/-- A program goes on where the one before it left the server; a failure ends both. -/
theorem runOn_bind (p : Program α) (f : α → Program β) (server : Server) :
    (p.bind f).runOn server =
      match p.runOn server with
      | (.ok a, server) => (f a).runOn server
      | (.error e, server) => (.error e, server) := by
  induction p generalizing server with
  | done answer => cases answer <;> rfl
  | send statement next ih =>
    rw [runOn_send, ← ih]
    rfl
  | rollback next ih =>
    rw [runOn_rollback, ← ih]
    rfl

end Program

end EventLog.Postgres
