/-
# What a write sends, whatever the server replies

A write is a transaction of several statements, and each of them can be refused, or be
answered by rows that do not hold what is needed. Nothing is assumed of the server here:
the replies are any list, which may run out.

A `Task` is what a write has to do once its input has been accepted, and its script is the
statements that do it. `Disciplined` says how the conversation of a write relates to that
script: what has been sent is the beginning of it, a failure ends it and is the answer, a
commit comes last and only if everything before it allows it, and a transaction that has
been begun and not committed is rolled back.

The proof goes through a write once. `Course` lists the five ways in which a conversation
can end, each with the statements it has sent; a step lemma for each kind of statement
says that the conversation either ends here in one of these ways or goes on. What
`Disciplined` asks is then read off the five ways.

Versions are integers without bound: a head that the server returns is taken to leave room for
the batch in eight bytes (`LeavesRoom`). A rollback is taken to be carried out; what becomes of
a write if it is refused is the subject of `EventLog.Proofs.Postgres.Rollbacks`. What the server
holds in its tables is no part of this: that is the subject of
`EventLog.Proofs.Postgres.Refinement`.
-/

import EventLog.Order.Event
import EventLog.Proofs.Postgres.Conversations
import EventLog.Proofs.Store.Writes

namespace EventLog.Postgres

variable {ε α : Type}

/-! ## What is to be written -/

/-- What a write has to do once its input has been accepted. -/
inductive Task (ε : Type) where
  | store (now : Timestamp) (staged : List (Staged ε)) (expected : Option Int)
  | link (ids : List Uuid) (expected : Option Int)
  | delete

/-- The version in the reply to a statement that locks a head, 0 if there is none. -/
def versionRead : Reply → Int
  | .table rows => (headIn rows).toOption.getD 0
  | .failed _ => 0

/-- The events in the reply to the question which of them are there. -/
def eventsRead : Reply → List Uuid
  | .table rows => (idsIn rows).toOption.getD []
  | .failed _ => []

namespace Task

/-- The version that the stream is expected to be at, if one is. -/
def expected : Task ε → Option Int
  | store _ _ expected => expected
  | link _ expected => expected
  | delete => none

/-- The events that have to be there already. -/
def linked : Task ε → List Uuid
  | link ids _ => ids
  | _ => []

/-- There is nothing to write. -/
def IsEmpty : Task ε → Prop
  | store _ staged _ => staged = []
  | link ids _ => ids = []
  | delete => False

/-- The version of the stream, as the server has returned it. -/
def current (replies : List Reply) : Task ε → Int
  | store .. => versionRead (replyTo replies 2)
  | link .. => versionRead (replyTo replies 3)
  | delete => 0

/-- Everything the server has returned permits the task to be committed. -/
structure Permitted (task : Task ε) (replies : List Reply) : Prop where
  known : ∀ id ∈ task.linked, id ∈ eventsRead (replyTo replies 1)
  expected : versionMatches task.expected (task.current replies)
  nonempty : ¬ task.IsEmpty

/-- What the server has returned does not permit it, and the write is answered with this. -/
inductive Declined (task : Task ε) (stream : String) (replies : List Reply) :
    Except Error α → Prop
  | unknown {before after : List Uuid} {missing : Uuid}
      (h : task.linked = before ++ missing :: after)
      (known : ∀ id ∈ before, id ∈ eventsRead (replyTo replies 1))
      (absent : missing ∉ eventsRead (replyTo replies 1)) :
      Declined task stream replies (.error (.unknownEvent missing))
  | moved {version : Int} (known : ∀ id ∈ task.linked, id ∈ eventsRead (replyTo replies 1))
      (h : task.expected = some version) (hne : version ≠ task.current replies) :
      Declined task stream replies
        (.error (.conflict stream (some version) (task.current replies)))
  | empty {a : α} (known : ∀ id ∈ task.linked, id ∈ eventsRead (replyTo replies 1))
      (expectation : versionMatches task.expected (task.current replies)) (h : task.IsEmpty) :
      Declined task stream replies (.ok a)

theorem Declined.not_permitted {task : Task ε} {stream : String} {replies : List Reply}
    {answer : Except Error α} (h : task.Declined stream replies answer) :
    ¬ task.Permitted replies := by
  intro permitted
  cases h with
  | unknown h known absent => exact absent (permitted.known _ (by simp [h]))
  | moved known h hne =>
      have hexpected := permitted.expected
      rw [h] at hexpected
      exact hne (by simpa [versionMatches] using hexpected)
  | empty known expectation h => exact permitted.nonempty h

variable [EventType ε]

/-- The statements of a task before its commit, in a stream whose head is at this version. -/
def body (stream : String) (current : Int) : Task ε → List Statement
  | store now staged _ =>
    [.begin, .ensureHead stream, .lockHead stream, .insertEvents (staged.map (eventRow now)),
      .insertMemberships (membershipRows stream current (staged.map Staged.eventId)),
      .moveHead stream (current + staged.length)]
  | link ids _ =>
    [.begin, .knownEvents ids, .ensureHead stream, .lockHead stream,
      .insertMemberships (membershipRows stream current ids),
      .moveHead stream (current + ids.length)]
  | delete => [.begin, .deleteMemberships stream, .deleteHead stream]

/-- The statements of a task, the commit included. -/
def script (stream : String) (current : Int) (task : Task ε) : List Statement :=
  task.body stream current ++ [.commit]

theorem commit_notMem_body (stream : String) (current : Int) (task : Task ε) :
    Statement.commit ∉ task.body stream current := by
  cases task <;> simp [body]

end Task

/-! ## How a conversation goes -/

/-- The error that a failure of a statement is to the caller. Memberships that are there
already, behind a head at version `current`, were put there by another writer; every other
failure is what its class says. -/
def Statement.explain (stream : String) (current : Int) : Statement → Failure → Error
  | insertMemberships _, failure =>
    if failure = .state "23505" then .conflict stream (some current) (current + 1)
    else failure.toError
  | _, failure => failure.toError

theorem explainInsert_eq (stream : String) (current : Int) (failure : Failure) :
    explainInsert stream current failure =
      if failure = .state "23505" then .conflict stream (some current) (current + 1)
      else failure.toError := by
  cases failure <;> simp [explainInsert, Failure.isUniqueViolation]

/-- The statements of a conversation. -/
def Program.Transcript.statements (t : Program.Transcript α) : List Statement :=
  t.sent.filterMap fun
    | .statement statement => some statement
    | .rollback => none

/-- None of these statements, the first of a conversation, has failed. -/
def Went (replies : List Reply) (sent : List Statement) : Prop :=
  ∀ (place : Nat) (statement : Statement), sent[place]? = some statement →
    statement.failure? (replyTo replies place) = none

@[simp] theorem Went.nil (replies : List Reply) : Went replies [] := by
  intro _ _ h
  cases h

theorem Went.of_beginning {replies : List Reply} {sent all : List Statement}
    (h : Went replies all) (hsent : sent <+: all) : Went replies sent := by
  intro place statement hplace
  obtain ⟨rest, rfl⟩ := hsent
  have hlt : place < sent.length := (List.getElem?_eq_some_iff.mp hplace).1
  exact h place statement (by rw [List.getElem?_append_left hlt, hplace])

/-- What went well and begins with the transaction has begun it. -/
theorem Went.begins {replies : List Reply} {sent : List Statement} (h : Went replies sent)
    (begun : sent.head? = some .begin) : Statement.begin.failure? (replyTo replies 0) = none :=
  h 0 .begin (by rw [← List.head?_eq_getElem?, begun])

theorem went_concat_iff {replies : List Reply} {sent : List Statement} {statement : Statement} :
    Went replies (sent ++ [statement]) ↔
      Went replies sent ∧ statement.failure? (replyTo replies sent.length) = none := by
  constructor
  · intro h
    refine ⟨fun place s hs => h place s ?_, h sent.length statement (by simp)⟩
    rw [List.getElem?_append_left (List.getElem?_eq_some_iff.mp hs).1, hs]
  · rintro ⟨hsent, hlast⟩ place s hs
    rcases Nat.lt_trichotomy place sent.length with hlt | rfl | hgt
    · rw [List.getElem?_append_left hlt] at hs
      exact hsent place s hs
    · rw [List.getElem?_concat_length] at hs
      cases hs
      exact hlast
    · rw [List.getElem?_eq_none (by simp; omega)] at hs
      cases hs

/-- The only statement that has failed is the last one. -/
theorem Went.eq_last_of_failure {replies : List Reply} {sent : List Statement}
    {last statement : Statement} (went : Went replies sent) {place : Nat} {failure : Failure}
    (hplace : (sent ++ [last])[place]? = some statement)
    (h : statement.failure? (replyTo replies place) = some failure) :
    place = sent.length ∧ statement = last := by
  rcases Nat.lt_trichotomy place sent.length with hlt | rfl | hgt
  · rw [List.getElem?_append_left hlt] at hplace
    rw [went place statement hplace] at h
    cases h
  · rw [List.getElem?_concat_length] at hplace
    cases hplace
    exact ⟨rfl, rfl⟩
  · rw [List.getElem?_eq_none (by simp; omega)] at hplace
    cases hplace

/-- A conversation that keeps to its task. -/
structure Disciplined [EventType ε] (task : Task ε) (stream : String) (replies : List Reply)
    (t : Program.Transcript α) : Prop where
  begins : t.statements.head? = some .begin
  /-- What is sent is the script of the task, up to some statement. -/
  inOrder : t.statements <+: task.script stream (task.current replies)
  /-- Nothing but a rollback follows the statements. -/
  closed : t.sent = t.statements.map .statement ∨
    t.sent = t.statements.map .statement ++ [.rollback]
  /-- A statement that fails is the last one, and its failure is the answer. -/
  failed : ∀ (place : Nat) (statement : Statement) (failure : Failure),
    t.statements[place]? = some statement →
    statement.failure? (replyTo replies place) = some failure →
      place + 1 = t.statements.length ∧
        t.answer = .error (statement.explain stream (task.current replies) failure)
  /-- If no statement fails, the task has been carried out or had to be declined. -/
  went : Went replies t.statements →
    (t.statements = task.script stream (task.current replies) ∧ ∃ a, t.answer = .ok a) ∨
      task.Declined stream replies t.answer
  /-- There is nothing to send after a commit. -/
  commit_last : ∀ place : Nat, t.statements[place]? = some .commit → place + 1 = t.statements.length
  /-- A commit is sent exactly if everything before it went well and permits it. -/
  commit_iff : .commit ∈ t.statements ↔
    Went replies (task.body stream (task.current replies)) ∧ task.Permitted replies
  /-- A transaction that has been begun and not been committed is rolled back. -/
  rollback_iff : .rollback ∈ t.sent ↔
    Statement.begin.failure? (replyTo replies 0) = none ∧
      ¬ (Went replies (task.script stream (task.current replies)) ∧ task.Permitted replies)

/-- The ways in which the conversation of a write can go, one for each way it can end. -/
inductive Course [EventType ε] (task : Task ε) (stream : String) (replies : List Reply) :
    Program.Transcript α → Prop
  | unopened {failure : Failure} (h : replyTo replies 0 = .failed failure) :
      Course task stream replies ⟨[.statement .begin], .error failure.toError, replies.drop 1⟩
  | failed {sent : List Statement} {statement : Statement} {failure : Failure}
      (begun : sent.head? = some .begin)
      (inOrder : sent ++ [statement] <+: task.body stream (task.current replies))
      (went : Went replies sent)
      (h : statement.failure? (replyTo replies sent.length) = some failure) :
      Course task stream replies (Program.brokenOff replies (sent ++ [statement])
        (.error (statement.explain stream (task.current replies) failure)))
  | declined {sent : List Statement} {answer : Except Error α}
      (begun : sent.head? = some .begin)
      (inOrder : sent <+: task.body stream (task.current replies)) (went : Went replies sent)
      (h : task.Declined stream replies answer) :
      Course task stream replies (Program.brokenOff replies sent answer)
  | uncommitted {failure : Failure} (permitted : task.Permitted replies)
      (went : Went replies (task.body stream (task.current replies)))
      (h : replyTo replies (task.body stream (task.current replies)).length = .failed failure) :
      Course task stream replies (Program.brokenOff replies
        (task.script stream (task.current replies)) (.error failure.toError))
  | committed {a : α} {rows : Table} {unused : List Reply} (permitted : task.Permitted replies)
      (went : Went replies (task.body stream (task.current replies)))
      (h : replyTo replies (task.body stream (task.current replies)).length = .table rows) :
      Course task stream replies
        ⟨(task.script stream (task.current replies)).map .statement, .ok a, unused⟩

namespace Course

variable [EventType ε] {task : Task ε} {stream : String} {replies : List Reply}
  {t : Program.Transcript α}

theorem statements_map (sent : List Statement) (answer : Except Error α) (unused : List Reply) :
    (⟨sent.map .statement, answer, unused⟩ : Program.Transcript α).statements = sent := by
  rw [Program.Transcript.statements, List.filterMap_map]
  exact List.filterMap_some

theorem statements_unopened (e : Error) (unused : List Reply) :
    (⟨[.statement .begin], .error e, unused⟩ : Program.Transcript α).statements = [.begin] := rfl

theorem statements_brokenOff (sent : List Statement) (answer : Except Error α) :
    (Program.brokenOff replies sent answer).statements = sent := by
  rw [Program.Transcript.statements, Program.brokenOff, List.filterMap_append]
  exact (List.append_nil _).trans (statements_map sent answer [])

theorem begins (h : Course task stream replies t) : t.statements.head? = some .begin := by
  cases h with
  | unopened h => rfl
  | failed begun inOrder went h =>
      rw [statements_brokenOff, List.head?_append, begun]
      rfl
  | declined begun inOrder went h => rw [statements_brokenOff, begun]
  | uncommitted permitted went h =>
      rw [statements_brokenOff]
      cases task <;> rfl
  | committed permitted went h =>
      rw [statements_map]
      cases task <;> rfl

theorem inOrder (h : Course task stream replies t) :
    t.statements <+: task.script stream (task.current replies) := by
  cases h with
  | unopened h =>
      show [Statement.begin] <+: _
      cases task <;> exact ⟨_, rfl⟩
  | failed begun inOrder went h =>
      rw [statements_brokenOff]
      exact inOrder.trans (List.prefix_append _ _)
  | declined begun inOrder went h =>
      rw [statements_brokenOff]
      exact inOrder.trans (List.prefix_append _ _)
  | uncommitted permitted went h => exact ⟨[], by rw [statements_brokenOff, List.append_nil]⟩
  | committed permitted went h => exact ⟨[], by rw [statements_map, List.append_nil]⟩

theorem closed (h : Course task stream replies t) :
    t.sent = t.statements.map .statement ∨
      t.sent = t.statements.map .statement ++ [.rollback] := by
  cases h with
  | unopened h => exact .inl rfl
  | failed begun inOrder went h => exact .inr (by rw [statements_brokenOff]; rfl)
  | declined begun inOrder went h => exact .inr (by rw [statements_brokenOff]; rfl)
  | uncommitted permitted went h => exact .inr (by rw [statements_brokenOff]; rfl)
  | committed permitted went h => exact .inl (by rw [statements_map])

/-- A statement that fails is the last one. -/
theorem failed_last (h : Course task stream replies t) {place : Nat} {statement : Statement}
    {failure : Failure} (hplace : t.statements[place]? = some statement)
    (hfails : statement.failure? (replyTo replies place) = some failure) :
    place + 1 = t.statements.length ∧
      t.answer = .error (statement.explain stream (task.current replies) failure) := by
  cases h with
  | unopened h =>
      obtain ⟨rfl, rfl⟩ := (Went.nil replies).eq_last_of_failure hplace hfails
      rw [List.length_nil, h] at hfails
      cases hfails
      exact ⟨rfl, rfl⟩
  | failed begun inOrder went h =>
      rw [statements_brokenOff] at hplace ⊢
      obtain ⟨rfl, rfl⟩ := went.eq_last_of_failure hplace hfails
      rw [h] at hfails
      cases hfails
      exact ⟨by simp, rfl⟩
  | declined begun inOrder went h =>
      rw [statements_brokenOff] at hplace
      rw [went place statement hplace] at hfails
      cases hfails
  | uncommitted permitted went h =>
      rw [statements_brokenOff] at hplace ⊢
      obtain ⟨rfl, rfl⟩ := went.eq_last_of_failure hplace hfails
      rw [h] at hfails
      cases hfails
      exact ⟨by simp [Task.script], rfl⟩
  | committed permitted went h =>
      rw [statements_map] at hplace
      obtain ⟨rfl, rfl⟩ := went.eq_last_of_failure hplace hfails
      rw [h] at hfails
      cases hfails

/-- If no statement fails, the task has been carried out or had to be declined. -/
theorem carriedOut_or_declined (h : Course task stream replies t)
    (hwent : Went replies t.statements) :
    (t.statements = task.script stream (task.current replies) ∧ ∃ a, t.answer = .ok a) ∨
      task.Declined stream replies t.answer := by
  cases h with
  | unopened h =>
      have hbegin := hwent 0 .begin rfl
      rw [h] at hbegin
      cases hbegin
  | failed begun inOrder went h =>
      rw [statements_brokenOff, went_concat_iff, h] at hwent
      cases hwent.2
  | declined begun inOrder went h => exact .inr h
  | uncommitted permitted went h =>
      rw [statements_brokenOff, Task.script, went_concat_iff, h] at hwent
      cases hwent.2
  | committed permitted went h => exact .inl ⟨statements_map _ _ _, _, rfl⟩

/-- A commit is sent exactly if everything before it went well and permits it. -/
theorem commit_mem_iff (h : Course task stream replies t) :
    .commit ∈ t.statements ↔
      Went replies (task.body stream (task.current replies)) ∧ task.Permitted replies := by
  have hbody := task.commit_notMem_body stream (task.current replies)
  cases h with
  | unopened h =>
      rw [statements_unopened]
      refine iff_of_false (by simp) ?_
      rintro ⟨went, -⟩
      have hbegin := went.begins (by cases task <;> rfl)
      rw [h] at hbegin
      cases hbegin
  | failed begun inOrder went h =>
      rw [statements_brokenOff]
      refine iff_of_false (fun hmem => hbody (inOrder.subset hmem)) ?_
      rintro ⟨hwent, -⟩
      rw [(went_concat_iff.mp (hwent.of_beginning inOrder)).2] at h
      cases h
  | declined begun inOrder went h =>
      rw [statements_brokenOff]
      exact iff_of_false (fun hmem => hbody (inOrder.subset hmem)) fun hall =>
        h.not_permitted hall.2
  | uncommitted permitted went h =>
      rw [statements_brokenOff]
      exact iff_of_true (by simp [Task.script]) ⟨went, permitted⟩
  | committed permitted went h =>
      rw [statements_map]
      exact iff_of_true (by simp [Task.script]) ⟨went, permitted⟩

/-- There is nothing to send after a commit. -/
theorem commit_last (h : Course task stream replies t) {place : Nat}
    (hplace : t.statements[place]? = some .commit) : place + 1 = t.statements.length := by
  obtain ⟨rest, hscript⟩ := h.inOrder
  have hlt : place < t.statements.length := (List.getElem?_eq_some_iff.mp hplace).1
  have hlength := congrArg List.length hscript
  rw [List.length_append, Task.script, List.length_append, List.length_singleton] at hlength
  have hcommit : (task.script stream (task.current replies))[place]? = some .commit := by
    rw [← hscript, List.getElem?_append_left hlt, hplace]
  have hend : ¬ place < (task.body stream (task.current replies)).length := by
    intro hbody
    rw [Task.script, List.getElem?_append_left hbody] at hcommit
    exact task.commit_notMem_body _ _ (List.mem_of_getElem? hcommit)
  omega

/-- A transaction that has been begun and not been committed is rolled back. -/
theorem rollback_mem_iff (h : Course task stream replies t) :
    .rollback ∈ t.sent ↔ Statement.begin.failure? (replyTo replies 0) = none ∧
      ¬ (Went replies (task.script stream (task.current replies)) ∧ task.Permitted replies) := by
  have hback : ∀ (sent : List Statement) (answer : Except Error α),
      .rollback ∈ (Program.brokenOff replies sent answer).sent := by
    simp [Program.brokenOff]
  cases h with
  | unopened h =>
      refine iff_of_false (by simp) fun hall => ?_
      rw [h] at hall
      cases hall.1
  | failed begun inOrder went h =>
      refine iff_of_true (hback _ _) ⟨went.begins begun, ?_⟩
      rintro ⟨hwent, -⟩
      rw [Task.script, went_concat_iff] at hwent
      rw [(went_concat_iff.mp (hwent.1.of_beginning inOrder)).2] at h
      cases h
  | declined begun inOrder went h =>
      exact iff_of_true (hback _ _) ⟨went.begins begun, fun hall => h.not_permitted hall.2⟩
  | uncommitted permitted went h =>
      refine iff_of_true (hback _ _) ⟨went.begins (by cases task <;> rfl), ?_⟩
      rintro ⟨hwent, -⟩
      rw [Task.script, went_concat_iff, h] at hwent
      cases hwent.2
  | committed permitted went h =>
      refine iff_of_false (by simp) fun hall => hall.2 ⟨?_, permitted⟩
      rw [Task.script, went_concat_iff, h]
      exact ⟨went, rfl⟩

/-- However a conversation goes, it is disciplined. -/
theorem disciplined (h : Course task stream replies t) : Disciplined task stream replies t where
  begins := h.begins
  inOrder := h.inOrder
  closed := h.closed
  failed _ _ _ := h.failed_last
  went := h.carriedOut_or_declined
  commit_last _ := h.commit_last
  commit_iff := h.commit_mem_iff
  rollback_iff := h.rollback_mem_iff

/-! ## Going through a write -/

section Steps

variable {β : Type} {sent : List Statement} (begun : sent.head? = some .begin)
  (went : Went replies sent)
include begun went

/-- A statement of the script from whose rows a value is read. -/
theorem ask {statement : Statement} {explain : Failure → Error}
    {value : Table → Except Failure β} {next : β → Program (Program.Verdict α)}
    (inOrder : sent ++ [statement] <+: task.body stream (task.current replies))
    (hvalue : ∀ rows, statement.failure? (.table rows) = failureOf (value rows))
    (hexplain : ∀ failure, explain failure =
      statement.explain stream (task.current replies) failure)
    (hread : ∀ rows failure, value rows = .error failure →
      failure.toError = statement.explain stream (task.current replies) failure)
    (hnext : ∀ rows a, replyTo replies sent.length = .table rows → value rows = .ok a →
      Went replies (sent ++ [statement]) →
      Course task stream replies
        (Program.resume replies (sent ++ [statement]) (Program.settle (next a)))) :
    Course task stream replies (Program.resume replies sent
      (Program.settle (Program.ask statement explain value >>= next))) := by
  rw [Program.resume_settle_ask]
  cases hreply : replyTo replies sent.length with
  | failed failure =>
      dsimp only
      rw [hexplain]
      exact .failed begun inOrder went (by rw [hreply, Statement.failure?])
  | table rows =>
      dsimp only
      cases hrows : value rows with
      | error failure =>
          dsimp only
          rw [hread rows failure hrows]
          exact .failed begun inOrder went (by rw [hreply, hvalue, hrows, failureOf])
      | ok a =>
          refine hnext rows a hreply hrows (went_concat_iff.mpr ⟨went, ?_⟩)
          rw [hreply, hvalue, hrows, failureOf]

/-- A statement of the script that is sent for its effect. -/
theorem execute {statement : Statement} {next : Unit → Program (Program.Verdict α)}
    (inOrder : sent ++ [statement] <+: task.body stream (task.current replies))
    (hplain : ∀ rows, statement.failure? (.table rows) = none)
    (hexplain : ∀ failure, failure.toError =
      statement.explain stream (task.current replies) failure)
    (hnext : Went replies (sent ++ [statement]) →
      Course task stream replies
        (Program.resume replies (sent ++ [statement]) (Program.settle (next ())))) :
    Course task stream replies (Program.resume replies sent
      (Program.settle (Program.execute statement >>= next))) := by
  rw [Program.execute_eq_ask]
  exact ask begun went inOrder hplain hexplain nofun fun _ _ _ _ => hnext

/-- The head is locked, and a version that is not the expected one ends the work. -/
theorem lockHead {expected : Option Int} {next : Int → Program (Program.Verdict α)}
    (hexpected : task.expected = expected)
    (inOrder : sent ++ [.ensureHead stream] ++ [.lockHead stream] <+:
      task.body stream (task.current replies))
    (known : ∀ id ∈ task.linked, id ∈ eventsRead (replyTo replies 1))
    (hcurrent : task.current replies = versionRead (replyTo replies (sent.length + 1)))
    (hnext : Went replies (sent ++ [.ensureHead stream] ++ [.lockHead stream]) →
      versionMatches task.expected (task.current replies) →
      Course task stream replies
        (Program.resume replies (sent ++ [.ensureHead stream] ++ [.lockHead stream])
          (Program.settle (next (task.current replies))))) :
    Course task stream replies (Program.resume replies sent
      (Program.settle (Postgres.lockHead stream expected >>= next))) := by
  have hbegun : (sent ++ [Statement.ensureHead stream]).head? = some .begin := by
    rw [List.head?_append, begun]
    rfl
  have hlocked : (sent ++ [Statement.ensureHead stream] ++ [Statement.lockHead stream]).head? =
      some .begin := by
    rw [List.head?_append, hbegun]
    rfl
  rw [Postgres.lockHead, bind_assoc]
  refine execute begun went ((List.prefix_append _ _).trans inOrder) (fun _ => rfl)
    (fun _ => rfl) fun went => ?_
  rw [bind_assoc, Program.fetchOne_lockHead_eq_ask]
  refine ask hbegun went inOrder (fun _ => rfl) (fun _ => rfl) (fun _ _ _ => rfl) ?_
  intro rows version hreply hversion went
  have hread : version = task.current replies := by
    rw [List.length_append, List.length_singleton] at hreply
    rw [hcurrent, hreply, versionRead, hversion]
    rfl
  rw [hread]
  cases expected with
  | none =>
      rw [pure_bind]
      exact hnext went (.inl hexpected)
  | some version =>
      dsimp only
      by_cases hversion : version = task.current replies
      · rw [if_pos hversion, pure_bind]
        exact hnext went (.inr (hexpected.trans (congrArg some hversion)))
      · rw [if_neg hversion, Program.resume_settle_fail]
        exact .declined hlocked inOrder went (.moved known hexpected hversion)

/-- Memberships are inserted and the head is moved. -/
theorem insertMembers {ids : List Uuid} {next : List Place → Program (Program.Verdict α)}
    (inOrder : sent ++ [.insertMemberships (membershipRows stream (task.current replies) ids)] ++
      [.moveHead stream (task.current replies + ids.length)] <+:
        task.body stream (task.current replies))
    (hnext : ∀ places, Went replies
        (sent ++ [.insertMemberships (membershipRows stream (task.current replies) ids)] ++
          [.moveHead stream (task.current replies + ids.length)]) →
      Course task stream replies (Program.resume replies
        (sent ++ [.insertMemberships (membershipRows stream (task.current replies) ids)] ++
          [.moveHead stream (task.current replies + ids.length)])
        (Program.settle (next places)))) :
    Course task stream replies (Program.resume replies sent
      (Program.settle (Postgres.insertMembers stream (task.current replies) ids >>= next))) := by
  have hbegun : (sent ++ [Statement.insertMemberships
      (membershipRows stream (task.current replies) ids)]).head? = some .begin := by
    rw [List.head?_append, begun]
    rfl
  rw [Postgres.insertMembers, bind_assoc, Program.fetchAll_eq_ask]
  refine ask begun went ((List.prefix_append _ _).trans inOrder) (fun _ => rfl)
    (fun _ => explainInsert_eq _ _ _) ?_ ?_
  · intro rows failure hread
    rw [eq_badValue_of_placesIn hread]
    rfl
  · intro rows places _ _ went
    rw [bind_assoc]
    refine execute hbegun went inOrder (fun _ => rfl) (fun _ => rfl) fun went => ?_
    rw [pure_bind]
    exact hnext _ went

end Steps

/-- A task that has been written and is permitted is committed, or the commit fails. -/
theorem commit (went : Went replies (task.body stream (task.current replies)))
    (permitted : task.Permitted replies) (a : α) :
    Course task stream replies (Program.resume replies (task.body stream (task.current replies))
      (Program.settle (pure (.commit a)))) := by
  rw [Program.resume_settle_commit]
  cases hreply : replyTo replies (task.body stream (task.current replies)).length with
  | failed failure => exact .uncommitted permitted went hreply
  | table rows => exact .committed permitted went hreply

/-- What is done inside a transaction, once it has been begun. -/
theorem transaction {work : Program (Program.Verdict α)}
    (h : Went replies [.begin] →
      Course task stream replies (Program.resume replies [.begin] (Program.settle work))) :
    Course task stream replies ((Program.transaction work).follow replies) := by
  rw [Program.follow_transaction]
  cases hreply : replyTo replies 0 with
  | failed failure => exact .unopened hreply
  | table rows =>
      refine h (went_concat_iff.mpr ⟨Went.nil replies, ?_⟩)
      rw [List.length_nil, hreply]
      rfl

end Course

/-! ## The three writes -/

variable [EventType ε] {stream : String} {replies : List Reply}

theorem course_append (draw : Draw) (hstream : stream ≠ "") {batch : List (Envelope ε)}
    {staged : List (Staged ε)} (hstaged : Staged.ofEnvelopes draw 0 batch = .ok staged)
    (expected : Option Int) :
    Course (.store draw.now staged expected) stream replies
      ((append draw stream batch expected).follow replies) := by
  let task : Task ε := .store draw.now staged expected
  have hknown : ∀ id ∈ task.linked, id ∈ eventsRead (replyTo replies 1) := by
    simp [task, Task.linked]
  have hbody : [Statement.begin] ++ [.ensureHead stream] ++ [.lockHead stream] ++
      [.insertEvents (staged.map (eventRow draw.now))] ++
      [.insertMemberships (membershipRows stream (task.current replies)
        (staged.map Staged.eventId))] ++
      [.moveHead stream (task.current replies + (staged.map Staged.eventId).length)] =
      task.body stream (task.current replies) := by
    rw [List.length_map]
    rfl
  rw [append_eq hstream hstaged]
  refine Course.transaction fun went => ?_
  refine Course.lockHead rfl went rfl ⟨_, rfl⟩ hknown rfl fun went expectation => ?_
  by_cases hempty : staged = []
  · rw [if_pos (List.isEmpty_iff.mpr hempty), Program.resume_settle_abandon]
    exact .declined rfl ⟨_, rfl⟩ went (.empty hknown expectation hempty)
  · rw [if_neg (fun h => hempty (List.isEmpty_iff.mp h))]
    refine Course.execute rfl went ⟨_, rfl⟩ (fun _ => rfl) (fun _ => rfl) fun went => ?_
    refine Course.insertMembers rfl went ⟨[], ?_⟩ fun places went => ?_
    · rw [List.append_nil]
      exact hbody
    · rw [hbody] at went ⊢
      exact Course.commit went ⟨hknown, expectation, hempty⟩ _

theorem course_link (hstream : stream ≠ "") (ids : List Uuid) (expected : Option Int) :
    Course (.link ids expected : Task ε) stream replies
      ((link stream ids expected).follow replies) := by
  rw [link, requireStreamId, if_neg hstream]
  refine Course.transaction fun went => ?_
  rw [Program.fetchAll_eq_ask]
  refine Course.ask rfl went ⟨_, rfl⟩ (fun _ => rfl) (fun _ => rfl) (fun _ _ _ => rfl) ?_
  intro rows events hreply hevents went
  have hread : eventsRead (replyTo replies 1) = events := by
    rw [show replyTo replies 1 = _ from hreply, eventsRead, show idsIn rows = _ from hevents]
    rfl
  cases hmissing : ids.find? fun id => !events.contains id with
  | some missing =>
      obtain ⟨habsent, before, after, hids, hbefore⟩ := List.find?_eq_some_iff_append.mp hmissing
      refine .declined rfl ⟨_, rfl⟩ went (.unknown hids ?_ ?_)
      · simpa [hread] using hbefore
      · simpa [hread] using habsent
  | none =>
      have hknown : ∀ id ∈ ids, id ∈ eventsRead (replyTo replies 1) := by
        simpa [hread] using hmissing
      refine Course.lockHead rfl went rfl ⟨_, rfl⟩ hknown rfl fun went expectation => ?_
      by_cases hempty : ids = []
      · rw [if_pos (List.isEmpty_iff.mpr hempty), Program.resume_settle_abandon]
        exact .declined rfl ⟨_, rfl⟩ went (.empty hknown expectation hempty)
      · rw [if_neg (fun h => hempty (List.isEmpty_iff.mp h))]
        have permitted : Task.Permitted (.link ids expected : Task ε) replies :=
          ⟨hknown, expectation, hempty⟩
        refine Course.insertMembers rfl went ⟨[], rfl⟩ fun places went => ?_
        exact Course.commit went permitted _

theorem course_delete (hstream : stream ≠ "") :
    Course (.delete : Task ε) stream replies ((delete stream).follow replies) := by
  rw [delete, requireStreamId, if_neg hstream]
  refine Course.transaction fun went => ?_
  refine Course.execute rfl went ⟨_, rfl⟩ (fun _ => rfl) (fun _ => rfl) fun went => ?_
  refine Course.execute rfl went ⟨_, rfl⟩ (fun _ => rfl) (fun _ => rfl) fun went => ?_
  exact Course.commit went ⟨by simp [Task.linked], .inl rfl, id⟩ ()

/-- An input that an append refuses by itself: the stream has no name, or an event of the
batch cannot be encoded. -/
inductive AppendRefused (stream : String) (batch : List (Envelope ε)) : Error → Prop
  | unnamed (h : stream = "") : AppendRefused stream batch .emptyStreamId
  | unencodable {e : Error} (named : stream ≠ "") (h : FirstUnencodable batch e) :
      AppendRefused stream batch e

theorem append_of_refused (draw : Draw) {batch : List (Envelope ε)} {e : Error}
    (h : AppendRefused stream batch e) (expected : Option Int) :
    append draw stream batch expected = Program.fail e := by
  cases h with
  | unnamed h =>
      rw [append, requireStreamId, if_pos h]
      rfl
  | unencodable named h =>
      rw [append, requireStreamId, if_neg named, Staged.ofEnvelopes_eq_error_iff.mpr h]
      rfl

theorem follow_append_of_refused (draw : Draw) {batch : List (Envelope ε)} {e : Error}
    (h : AppendRefused stream batch e) (expected : Option Int) :
    (append draw stream batch expected).follow replies = ⟨[], .error e, replies⟩ := by
  rw [append_of_refused draw h expected]
  rfl

/-- What is not refused is encoded as a whole. -/
theorem exists_staged_of_not_refused (draw : Draw) {batch : List (Envelope ε)}
    (h : ∀ e, ¬ AppendRefused stream batch e) :
    stream ≠ "" ∧ ∃ staged, Staged.ofEnvelopes draw 0 batch = .ok staged := by
  have hstream : stream ≠ "" := fun hempty => h _ (.unnamed hempty)
  refine ⟨hstream, ?_⟩
  cases hstaged : Staged.ofEnvelopes draw 0 batch with
  | error e =>
      have hrefused := Staged.ofEnvelopes_eq_error_iff.mp hstaged
      exact absurd (.unencodable hstream hrefused) (h e)
  | ok staged => exact ⟨staged, rfl⟩

/-- Whatever is asked to be written, and whatever the server replies: input that is refused
is refused before anything is sent, and every other write keeps to its task. -/
theorem writes_disciplined (draw : Draw) (stream : String) (batch : List (Envelope ε))
    (ids : List Uuid) (expected : Option Int) (replies : List Reply) :
    ((∀ e, AppendRefused stream batch e →
        (append draw stream batch expected).follow replies = ⟨[], .error e, replies⟩) ∧
      ((∀ e, ¬ AppendRefused stream batch e) →
        ∃ staged, Staged.ofEnvelopes draw 0 batch = .ok staged ∧
          Disciplined (.store draw.now staged expected) stream replies
            ((append draw stream batch expected).follow replies))) ∧
    ((stream = "" →
        (link stream ids expected).follow replies = ⟨[], .error .emptyStreamId, replies⟩) ∧
      (stream ≠ "" → Disciplined (.link ids expected : Task ε) stream replies
        ((link stream ids expected).follow replies))) ∧
    ((stream = "" → (delete stream).follow replies = ⟨[], .error .emptyStreamId, replies⟩) ∧
      (stream ≠ "" → Disciplined (.delete : Task ε) stream replies
        ((delete stream).follow replies))) := by
  refine ⟨⟨fun e h => ?_, fun h => ?_⟩, ⟨fun hstream => ?_, fun hstream => ?_⟩,
    fun hstream => ?_, fun hstream => ?_⟩
  · exact follow_append_of_refused draw h expected
  · obtain ⟨hstream, staged, hstaged⟩ := exists_staged_of_not_refused draw h
    exact ⟨staged, hstaged, (course_append draw hstream hstaged expected).disciplined⟩
  · rw [link, requireStreamId, if_pos hstream]
    rfl
  · exact (course_link hstream ids expected).disciplined
  · rw [delete, requireStreamId, if_pos hstream]
    rfl
  · exact (course_delete hstream).disciplined

/-- A note behind the four events that a stream is expected to have, while the server says
that its place is taken. -/
theorem writes_disciplined_taken_place :
    let note : Envelope OrderEvent := .fresh "agg" (.raw "Noted" "1")
    let replies : List Reply :=
      [.table .none, .table .none, .table ⟨[⟨"last_version", .int8⟩], [[.int 4]]⟩,
        .table .none, .failed (.state "23505")]
    let t := (append (countingSupply 0) "s" [note] (some 4)).follow replies
    (∀ e, ¬ AppendRefused "s" [note] e) ∧
      t.statements[4]? = some (.insertMemberships [⟨"s", 5, (countingSupply 0).eventId 0⟩]) ∧
        t.answer = .error (.conflict "s" (some 4) 5) ∧ .rollback ∈ t.sent := by
  intro note replies t
  have haccepted : ∀ e, ¬ AppendRefused "s" [note] e := by
    intro e h
    cases h with
    | unnamed h => exact absurd h (by decide)
    | unencodable named h =>
        obtain ⟨before, envelope, after, hbatch, -, hfails⟩ := h
        have hmem : envelope ∈ [note] := by simp [hbatch]
        rw [List.mem_singleton.mp hmem] at hfails
        cases hfails
  obtain ⟨staged, hstaged, disciplined⟩ :=
    (writes_disciplined (countingSupply 0) "s" [note] [] (some 4) replies).1.2 haccepted
  have hfailed := disciplined.failed 4 _ (.state "23505") rfl rfl
  refine ⟨haccepted, rfl, hfailed.2, disciplined.rollback_iff.mpr ⟨rfl, fun hall => ?_⟩⟩
  exact absurd ((hall.1.of_beginning disciplined.inOrder) 4 _ rfl) (by decide)

end EventLog.Postgres
