/-
# Programs inside a transaction

What the building blocks of the database programs come to on a server that carries out
statements: one equation each, so that an operation is followed statement by statement and
nobody looks into `Program` again. Inside a transaction the server is `⟨t, some u⟩`: `t` is
what has been committed and `u` what the transaction sees. Whatever the work does to `u`,
`t` is what is left of it unless it ends in a commit (`runOn_transaction_of_*`).
-/

import EventLog.Postgres.Operations
import EventLog.Postgres.Server
import EventLog.Proofs.Store.Writes

namespace EventLog.Postgres.Program

variable {α β : Type} {server after : Server}

/-! ## Sequencing -/

theorem runOn_bind_of_ok {p : Program α} {f : α → Program β} {a : α}
    (h : p.runOn server = (.ok a, after)) : (p >>= f).runOn server = (f a).runOn after := by
  rw [Program.bind_eq, runOn_bind, h]

theorem runOn_bind_of_error {p : Program α} {f : α → Program β} {e : Error}
    (h : p.runOn server = (.error e, after)) : (p >>= f).runOn server = (.error e, after) := by
  rw [Program.bind_eq, runOn_bind, h]

theorem runOn_pure (a : α) (server : Server) :
    (pure a : Program α).runOn server = (.ok a, server) :=
  rfl

theorem runOn_ofExcept (answer : Except Error α) (server : Server) :
    (ofExcept answer).runOn server = (answer, server) := rfl

/-! ## Single statements -/

theorem runOn_execute {statement : Statement} {rows : Table}
    (h : server.carryOut statement = (.table rows, after)) :
    (execute statement).runOn server = (.ok (), after) := by
  rw [execute, runOn_send, h]
  rfl

theorem runOn_sendWith {statement : Statement} {explain : Failure → Error} {rows : Table}
    (h : server.carryOut statement = (.table rows, after)) :
    (sendWith statement explain).runOn server = (.ok rows, after) := by
  rw [sendWith, runOn_send, h]
  rfl

/-- A reply of rows that can all be decoded. -/
theorem runOn_fetchAll {statement : Statement} {explain : Failure → Error}
    {decode : Row → Except Failure α} {rows : Table} {values : List α}
    (h : server.carryOut statement = (.table rows, after))
    (hvalues : rows.labelled.mapM decode = .ok values) :
    (fetchAll statement explain decode).runOn server = (.ok values, after) := by
  rw [fetchAll, runOn_bind_of_ok (runOn_sendWith h), runOn_ofExcept, hvalues]
  rfl

/-- A reply without rows. -/
theorem runOn_fetchOptional_none {statement : Statement} {decode : Row → Except Failure α}
    {rows : Table} (h : server.carryOut statement = (.table rows, after))
    (hrows : rows.labelled = []) :
    (fetchOptional statement decode).runOn server = (.ok none, after) := by
  rw [fetchOptional, runOn_bind_of_ok (runOn_sendWith h), hrows]
  rfl

/-- A reply whose first row can be decoded. -/
theorem runOn_fetchOptional_some {statement : Statement} {decode : Row → Except Failure α}
    {rows : Table} {row : Row} {rest : List Row} {a : α}
    (h : server.carryOut statement = (.table rows, after))
    (hrows : rows.labelled = row :: rest) (ha : decode row = .ok a) :
    (fetchOptional statement decode).runOn server = (.ok (some a), after) := by
  rw [fetchOptional, runOn_bind_of_ok (runOn_sendWith h), hrows]
  dsimp only
  rw [runOn_ofExcept, ha]
  rfl

theorem runOn_fetchOne {statement : Statement} {decode : Row → Except Failure α} {rows : Table}
    {row : Row} {rest : List Row} {a : α} (h : server.carryOut statement = (.table rows, after))
    (hrows : rows.labelled = row :: rest) (ha : decode row = .ok a) :
    (fetchOne statement decode).runOn server = (.ok a, after) := by
  rw [fetchOne, runOn_bind_of_ok (runOn_fetchOptional_some h hrows ha)]
  rfl

/-! ## Transactions -/

/-- How the end of the work settles a transaction. -/
theorem runOn_settle (work : Program (Verdict α)) (server : Server) :
    (settle work).runOn server =
      match work.runOn server with
      | (.error e, after) => (.error e, after.rollback)
      | (.ok (.abandon a), after) => (.ok a, after.rollback)
      | (.ok (.commit a), after) => (.ok a, ⟨after.pending.getD after.committed, none⟩) := by
  induction work generalizing server with
  | done answer =>
      cases answer with
      | error e => rfl
      | ok verdict => cases verdict <;> rfl
  | send statement next ih =>
      rw [settle, runOn_send, ih]
      rfl
  | rollback next ih =>
      rw [settle, runOn_rollback, ih]
      rfl

variable {work : Program (Verdict α)} {t u : Tables}

/-- A transaction is its work followed by how it is settled. -/
theorem runOn_transaction (work : Program (Verdict α)) (t : Tables) :
    (transaction work).runOn ⟨t, none⟩ =
      match work.runOn ⟨t, some t⟩ with
      | (.error e, after) => (.error e, after.rollback)
      | (.ok (.abandon a), after) => (.ok a, after.rollback)
      | (.ok (.commit a), after) => (.ok a, ⟨after.pending.getD after.committed, none⟩) :=
  runOn_settle work ⟨t, some t⟩

/-- Work that fails leaves nothing behind. -/
theorem runOn_transaction_of_error {e : Error}
    (h : work.runOn ⟨t, some t⟩ = (.error e, ⟨t, some u⟩)) :
    (transaction work).runOn ⟨t, none⟩ = (.error e, ⟨t, none⟩) := by
  rw [runOn_transaction, h]
  rfl

/-- Work that is abandoned leaves nothing behind either. -/
theorem runOn_transaction_of_abandon {a : α}
    (h : work.runOn ⟨t, some t⟩ = (.ok (.abandon a), ⟨t, some u⟩)) :
    (transaction work).runOn ⟨t, none⟩ = (.ok a, ⟨t, none⟩) := by
  rw [runOn_transaction, h]
  rfl

/-- Work that ends in a commit replaces what was committed before. -/
theorem runOn_transaction_of_commit {a : α}
    (h : work.runOn ⟨t, some t⟩ = (.ok (.commit a), ⟨t, some u⟩)) :
    (transaction work).runOn ⟨t, none⟩ = (.ok a, ⟨u, none⟩) := by
  rw [runOn_transaction, h]
  rfl

end EventLog.Postgres.Program
