/-
# Conversations with the database

An operation on the database is a program: it sends a statement, goes on according to the
reply, and ends with an answer. What the server does is no part of it, so one program can
be followed against a list of replies, against no server at all, or against any model of
one, and statements about it can quantify over all of these.

A rollback is a step of its own, and it has a reply as a statement has. A program that gives
up a transaction because of a failure does not look at it. One that gives up a transaction
because there is nothing to write does: that rollback is asked for explicitly, and if it is
refused, the refusal is the answer.
-/

import EventLog.Postgres.Reply
import EventLog.Postgres.Statement

namespace EventLog.Postgres

inductive Program (α : Type) where
  | done (answer : Except Error α)
  | send (statement : Statement) (next : Reply → Program α)
  | rollback (next : Reply → Program α)

namespace Program

variable {α β : Type}

/-- Go on with the answer; a failure ends both. -/
def bind (p : Program α) (f : α → Program β) : Program β :=
  match p with
  | done (.ok a) => f a
  | done (.error e) => done (.error e)
  | send statement next => send statement fun reply => bind (next reply) f
  | rollback next => rollback fun reply => bind (next reply) f

instance : Monad Program where
  pure a := done (.ok a)
  bind := bind

protected theorem bind_eq (p : Program α) (f : α → Program β) : p >>= f = p.bind f := rfl

protected theorem pure_eq (a : α) : (pure a : Program α) = done (.ok a) := rfl

protected theorem bind_pure (p : Program α) : p.bind (fun a => done (.ok a)) = p := by
  induction p with
  | done answer => cases answer <;> rfl
  | send statement next ih => exact congrArg (send statement) (funext ih)
  | rollback next ih => exact congrArg rollback (funext ih)

protected theorem bind_bind {γ : Type} (p : Program α) (f : α → Program β) (g : β → Program γ) :
    (p.bind f).bind g = p.bind fun a => (f a).bind g := by
  induction p with
  | done answer => cases answer <;> rfl
  | send statement next ih => exact congrArg (send statement) (funext ih)
  | rollback next ih => exact congrArg rollback (funext ih)

/-- How a program is split into steps does not matter. -/
instance : LawfulMonad Program :=
  LawfulMonad.mk' Program Program.bind_pure (fun _ _ => rfl) Program.bind_bind

def fail (e : Error) : Program α := done (.error e)

def ofExcept (answer : Except Error α) : Program α := done answer

/-- Go on with whatever the server returned; `explain` says which error a failure is. -/
def sendWith (statement : Statement) (explain : Failure → Error) : Program Table :=
  send statement fun
    | .failed failure => fail (explain failure)
    | .table rows => done (.ok rows)

/-- Carry out a statement for its effect. -/
def execute (statement : Statement) : Program Unit :=
  send statement fun
    | .failed failure => fail failure.toError
    | .table _ => done (.ok ())

/-- All rows, each decoded. -/
def fetchAll (statement : Statement) (explain : Failure → Error)
    (decode : Row → Except Failure α) : Program (List α) := do
  let table ← sendWith statement explain
  ofExcept ((table.labelled.mapM decode).mapError Failure.toError)

/-- The first row, decoded, if there is one. -/
def fetchOptional (statement : Statement) (decode : Row → Except Failure α) :
    Program (Option α) := do
  let table ← sendWith statement Failure.toError
  match table.labelled with
  | [] => return none
  | row :: _ => ofExcept (((decode row).map some).mapError Failure.toError)

/-- The first row, decoded; there has to be one. -/
def fetchOne (statement : Statement) (decode : Row → Except Failure α) : Program α := do
  match ← fetchOptional statement decode with
  | some a => return a
  | none => fail Failure.noRow.toError

/-- How the work inside a transaction ends when it does not fail. -/
inductive Verdict (α : Type) where
  | commit (answer : α)
  /-- Nothing was to be written after all. -/
  | abandon (answer : α)

/-- Commit or roll back as the work inside the transaction demands. A commit that fails is
followed by a rollback, and so is a rollback that was asked for and fails. -/
def settle : Program (Verdict α) → Program α
  | done (.error e) => rollback fun _ => fail e
  | done (.ok (.abandon a)) =>
    rollback fun
      | .failed failure => rollback fun _ => fail failure.toError
      | .table _ => done (.ok a)
  | done (.ok (.commit a)) =>
    send .commit fun
      | .failed failure => rollback fun _ => fail failure.toError
      | .table _ => done (.ok a)
  | send statement next => send statement fun reply => settle (next reply)
  | rollback next => rollback fun reply => settle (next reply)

/-- Do the work inside a transaction. -/
def transaction (work : Program (Verdict α)) : Program α :=
  send .begin fun
    | .failed failure => fail failure.toError
    | .table _ => settle work

/-- A step as the server sees it. -/
inductive Sent where
  | statement (statement : Statement)
  | rollback
deriving DecidableEq

/-- A conversation: what was sent, the answer, and the replies that were left over. -/
structure Transcript (α : Type) where
  sent : List Sent
  answer : Except Error α
  unused : List Reply

/-- Follow a program against these replies, one per statement, while every rollback gets the
reply `rolledBack`. When the replies run out, every further statement is carried out and
returns nothing. -/
def followWith (rolledBack : Reply) (replies : List Reply) : Program α → Transcript α
  | done answer => ⟨[], answer, replies⟩
  | send statement next =>
    match replies with
    | [] =>
      let rest := followWith rolledBack [] (next (.table .none))
      { rest with sent := .statement statement :: rest.sent }
    | reply :: replies =>
      let rest := followWith rolledBack replies (next reply)
      { rest with sent := .statement statement :: rest.sent }
  | rollback next =>
    let rest := followWith rolledBack replies (next rolledBack)
    { rest with sent := .rollback :: rest.sent }

/-- Follow a program against these replies while every rollback is carried out. -/
def follow (replies : List Reply) (p : Program α) : Transcript α :=
  p.followWith (.table .none) replies

/-- The answer when nothing reaches the server. -/
def offline : Program α → Except Error α
  | done answer => answer
  | send _ next => offline (next (.failed .unreachable))
  | rollback next => offline (next (.failed .unreachable))

end Program

end EventLog.Postgres
