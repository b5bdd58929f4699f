/-
# Conversations statement by statement

What a program sends against a list of replies is followed here one statement at a time.
`replyTo` is the reply that a statement gets by its place, and `Statement.failure?` says
what is wrong with such a reply: the server has refused the statement, or a value that is
needed is not in the rows it returned.

`Program.resume` is a conversation in the middle: some statements have been sent already,
and the rest of the program goes on with the replies that are left. Every statement of a
write is sent by a program of the form `Program.ask`, so one equation
(`resume_settle_ask`) says what becomes of a conversation inside a transaction. It is used in
two directions: forward if the replies are known (`resume_settle_ask_of_ok`), and backward if it
is known that the transaction was answered (`exists_of_resume_settle_ask`).
-/

import EventLog.Postgres.Operations
import EventLog.Proofs.Except

namespace EventLog.Postgres

/-- The reply to the statement at this place. When replies have run out, a statement is
carried out and returns nothing. -/
def replyTo (replies : List Reply) (place : Nat) : Reply := replies[place]?.getD (.table .none)

/-! ## What is needed of a reply -/

/-- The version that a head is read to be at. -/
def headIn (rows : Table) : Except Failure Int :=
  match rows.labelled with
  | [] => .error .noRow
  | row :: _ => row.at? 0 int8

/-- The identifiers of events that are there. -/
def idsIn (rows : Table) : Except Failure (List Uuid) :=
  rows.labelled.mapM fun row => row.at? 0 uuidValue

/-- The memberships that have been inserted. -/
def placesIn (rows : Table) : Except Failure (List Place) :=
  rows.labelled.mapM fun row => do return ⟨← row.at? 0 int8, ← row.at? 1 int8⟩

/-- The failure of reading a value. -/
def failureOf {α : Type} : Except Failure α → Option Failure
  | .error failure => some failure
  | .ok _ => none

/-- What is wrong with a reply to this statement. -/
def Statement.failure? : Statement → Reply → Option Failure
  | _, .failed failure => some failure
  | lockHead _, .table rows => failureOf (headIn rows)
  | knownEvents _, .table rows => failureOf (idsIn rows)
  | insertMemberships _, .table rows => failureOf (placesIn rows)
  | _, .table _ => none

/-- A value that cannot be read is no refusal of the server. -/
theorem Row.eq_badValue_of_at? {α : Type} {row : Row} {index : Nat} {decode : Decoder α}
    {failure : Failure} (h : row.at? index decode = .error failure) : failure = .badValue := by
  unfold Row.at? at h
  split at h
  · cases h
  · cases h
    rfl

/-- Nor are several of them. -/
theorem eq_badValue_of_mapM {α : Type} {decode : Row → Except Failure α} {rows : List Row}
    {failure : Failure} (hdecode : ∀ row cause, decode row = .error cause → cause = .badValue)
    (h : rows.mapM decode = .error failure) : failure = .badValue := by
  obtain ⟨row, -, hrow⟩ := Except.exists_error_of_mapM h
  exact hdecode row failure hrow

theorem eq_badValue_of_placesIn {rows : Table} {failure : Failure}
    (h : placesIn rows = .error failure) : failure = .badValue := by
  refine eq_badValue_of_mapM ?_ h
  intro row cause hrow
  cases hversion : row.at? 0 int8 with
  | error _ =>
      rw [hversion] at hrow
      cases hrow
      exact Row.eq_badValue_of_at? hversion
  | ok version =>
      cases hposition : row.at? 1 int8 with
      | error _ =>
          rw [hversion, hposition] at hrow
          cases hrow
          exact Row.eq_badValue_of_at? hposition
      | ok position =>
          rw [hversion, hposition] at hrow
          cases hrow

namespace Program

variable {α β : Type}

/-! ## Asking one thing -/

/-- Send one statement and take a value out of the rows it returns; `explain` says which
error a refusal is. -/
def ask (statement : Statement) (explain : Failure → Error)
    (value : Table → Except Failure α) : Program α :=
  send statement fun
    | .failed failure => done (.error (explain failure))
    | .table rows => done ((value rows).mapError Failure.toError)

theorem execute_eq_ask (statement : Statement) :
    execute statement = ask statement Failure.toError fun _ => .ok () := rfl

theorem fetchAll_eq_ask (statement : Statement) (explain : Failure → Error)
    (decode : Row → Except Failure α) :
    fetchAll statement explain decode =
      ask statement explain fun rows => rows.labelled.mapM decode := by
  refine congrArg (send statement) (funext fun reply => ?_)
  cases reply <;> rfl

theorem fetchOne_lockHead_eq_ask (stream : String) :
    (fetchOne (.lockHead stream) fun row => row.at? 0 int8) =
      ask (.lockHead stream) Failure.toError headIn := by
  refine congrArg (send (.lockHead stream)) (funext fun reply => ?_)
  cases reply with
  | failed failure => rfl
  | table rows =>
      show ((match rows.labelled with
        | [] => done (.ok none)
        | row :: _ => ofExcept (((row.at? 0 int8).map some).mapError Failure.toError)).bind _) =
          done ((headIn rows).mapError Failure.toError)
      unfold headIn
      cases rows.labelled with
      | nil => rfl
      | cons row rest =>
          dsimp only
          cases row.at? 0 int8 <;> rfl

/-! ## In the middle of a conversation -/

/-- The conversation after these statements have been sent, if the program goes on with the
replies that are left. -/
def resume (replies : List Reply) (sent : List Statement) (p : Program α) : Transcript α :=
  let rest := p.follow (replies.drop sent.length)
  { rest with sent := sent.map .statement ++ rest.sent }

/-- The conversation that breaks off after these statements. -/
def brokenOff (replies : List Reply) (sent : List Statement) (answer : Except Error α) :
    Transcript α :=
  ⟨sent.map .statement ++ [.rollback], answer, replies.drop sent.length⟩

theorem follow_eq_resume (replies : List Reply) (p : Program α) :
    p.follow replies = resume replies [] p := rfl

/-- A statement gets the first of the replies that are left. -/
theorem followWith_send (rolledBack : Reply) (replies : List Reply) (statement : Statement)
    (next : Reply → Program α) :
    (send statement next).followWith rolledBack replies =
      let rest := (next (replies.headD (.table .none))).followWith rolledBack replies.tail
      { rest with sent := .statement statement :: rest.sent } := by
  cases replies <;> rfl

theorem resume_send (replies : List Reply) (sent : List Statement) (statement : Statement)
    (next : Reply → Program α) :
    resume replies sent (send statement next) =
      resume replies (sent ++ [statement]) (next (replyTo replies sent.length)) := by
  have hreply : (replies.drop sent.length).headD (.table .none) =
      replyTo replies sent.length := by
    rw [List.headD_eq_head?_getD, List.head?_drop, replyTo]
  rw [resume, follow, followWith_send, hreply, List.tail_drop, resume, follow]
  simp

@[simp] theorem resume_done (replies : List Reply) (sent : List Statement)
    (answer : Except Error α) :
    resume replies sent (done answer) =
      ⟨sent.map .statement, answer, replies.drop sent.length⟩ := by
  simp [resume, follow, followWith]

@[simp] theorem resume_rollback_done (replies : List Reply) (sent : List Statement)
    (answer : Except Error α) :
    resume replies sent (rollback fun _ => done answer) = brokenOff replies sent answer := rfl

/-- Inside a transaction a statement that is refused, or returns what cannot be read, is the
last one. -/
theorem resume_settle_ask (replies : List Reply) (sent : List Statement) (statement : Statement)
    (explain : Failure → Error) (value : Table → Except Failure α)
    (next : α → Program (Verdict β)) :
    resume replies sent (settle (ask statement explain value >>= next)) =
      match replyTo replies sent.length with
      | .failed failure => brokenOff replies (sent ++ [statement]) (.error (explain failure))
      | .table rows =>
        match value rows with
        | .error failure => brokenOff replies (sent ++ [statement]) (.error failure.toError)
        | .ok a => resume replies (sent ++ [statement]) (settle (next a)) := by
  rw [Program.bind_eq, ask, Program.bind, settle, resume_send]
  cases replyTo replies sent.length with
  | failed failure => rfl
  | table rows =>
      dsimp only
      cases value rows <;> rfl

/-- Otherwise the transaction goes on with what was read. -/
theorem resume_settle_ask_of_ok {replies : List Reply} {sent : List Statement}
    {statement : Statement} {explain : Failure → Error} {value : Table → Except Failure α}
    {next : α → Program (Verdict β)} {rows : Table} {a : α}
    (hreply : replyTo replies sent.length = .table rows) (hvalue : value rows = .ok a) :
    resume replies sent (settle (ask statement explain value >>= next)) =
      resume replies (sent ++ [statement]) (settle (next a)) := by
  rw [resume_settle_ask, hreply]
  dsimp only
  rw [hvalue]

/-- A transaction that is answered has gone on. -/
theorem exists_of_resume_settle_ask {replies : List Reply} {sent : List Statement}
    {statement : Statement} {explain : Failure → Error} {value : Table → Except Failure α}
    {next : α → Program (Verdict β)} {answer : β}
    (h : (resume replies sent (settle (ask statement explain value >>= next))).answer =
      .ok answer) :
    ∃ rows a, replyTo replies sent.length = .table rows ∧ value rows = .ok a ∧
      resume replies sent (settle (ask statement explain value >>= next)) =
        resume replies (sent ++ [statement]) (settle (next a)) := by
  cases hreply : replyTo replies sent.length with
  | failed failure =>
      rw [resume_settle_ask, hreply] at h
      cases h
  | table rows =>
      cases hvalue : value rows with
      | error failure =>
          rw [resume_settle_ask, hreply] at h
          dsimp only at h
          rw [hvalue] at h
          cases h
      | ok a => exact ⟨rows, a, rfl, hvalue, resume_settle_ask_of_ok hreply hvalue⟩

/-- A failure that was decided on without the server ends the transaction as well. -/
theorem resume_settle_fail (replies : List Reply) (sent : List Statement) (e : Error)
    (next : α → Program (Verdict β)) :
    resume replies sent (settle (fail e >>= next)) = brokenOff replies sent (.error e) := rfl

theorem resume_settle_abandon (replies : List Reply) (sent : List Statement) (a : α) :
    resume replies sent (settle (pure (.abandon a))) = brokenOff replies sent (.ok a) := rfl

/-- A commit that is refused is followed by a rollback. -/
theorem resume_settle_commit (replies : List Reply) (sent : List Statement) (a : α) :
    resume replies sent (settle (pure (.commit a))) =
      match replyTo replies sent.length with
      | .failed failure => brokenOff replies (sent ++ [.commit]) (.error failure.toError)
      | .table _ => ⟨(sent ++ [Statement.commit]).map .statement, .ok a,
          replies.drop (sent.length + 1)⟩ := by
  rw [Program.pure_eq, settle, resume_send]
  cases replyTo replies sent.length <;> simp [fail]

/-- A transaction that cannot be begun is over. -/
theorem follow_transaction (replies : List Reply) (work : Program (Verdict α)) :
    (transaction work).follow replies =
      match replyTo replies 0 with
      | .failed failure => ⟨[.statement .begin], .error failure.toError, replies.drop 1⟩
      | .table _ => resume replies [.begin] (settle work) := by
  rw [follow_eq_resume, transaction, resume_send]
  show resume replies [.begin] (match replyTo replies 0 with
    | .failed failure => fail failure.toError
    | .table _ => settle work) = _
  cases replyTo replies 0 <;> simp [fail]

end Program

/-! ## The work of an append -/

/-- The work of an append in its transaction, its batch prepared. -/
def appendPrepared {ε : Type} [EventType ε] (draw : Draw) (stream : String)
    (staged : List (Staged ε)) (expected : Option Int) :
    Program (Program.Verdict (List (Envelope ε))) := do
  let current ← lockHead stream expected
  if staged.isEmpty then return .abandon []
  else
    Program.execute (.insertEvents (staged.map (eventRow draw.now)))
    let places ← insertMembers stream current (staged.map Staged.eventId)
    return .commit (List.zipWith (fun staged place =>
      staged.envelope.persistedAs staged.eventId place.version place.position) staged places)

/-- An append is that work once its input has been accepted. -/
theorem append_eq {ε : Type} [EventType ε] {draw : Draw} {stream : String}
    {batch : List (Envelope ε)} {staged : List (Staged ε)} (hstream : stream ≠ "")
    (hstaged : Staged.ofEnvelopes draw 0 batch = .ok staged) (expected : Option Int) :
    append draw stream batch expected =
      Program.transaction (appendPrepared draw stream staged expected) := by
  rw [append, requireStreamId, if_neg hstream, hstaged]
  rfl

end EventLog.Postgres
