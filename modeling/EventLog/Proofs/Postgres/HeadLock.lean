/-
# Which writes take turns by the head of their stream

Two writers of one stream take turns only if both lock its head before they touch its
memberships. `heldAfter` follows a conversation and says which heads the open transaction
has locked; `HeadFirst` asks that the memberships of a stream are changed only while its
head is among them.

Storing and linking keep to this against every server. A deletion never does: it deletes
the memberships first and takes the head, by deleting it, only afterwards. A writer that
has locked the head and not yet committed can therefore add memberships that the deletion
does not see, behind a head that the deletion then removes.
-/

import EventLog.Proofs.Postgres.Discipline

namespace EventLog.Postgres

/-! ## What a statement does to memberships and heads -/

namespace Statement

/-- The streams whose memberships are inserted or deleted. -/
def membersChanged : Statement → List String
  | insertMemberships rows => rows.map MembershipRow.stream
  | deleteMemberships stream => [stream]
  | _ => []

/-- The streams whose heads are locked until the transaction is over. -/
def headsLocked : Statement → List String
  | lockHead stream => [stream]
  | moveHead stream _ => [stream]
  | deleteHead stream => [stream]
  | _ => []

/-- The heads locked by the open transaction, if there is one, once the statement has got
this reply. -/
def heldThen (held : Option (List String)) (reply : Reply) (statement : Statement) :
    Option (List String) :=
  match statement, statement.failure? reply with
  | commit, _ => none
  | _, some _ => held
  | begin, none => some []
  | statement, none => held.map (· ++ statement.headsLocked)

end Statement

/-- The heads that are locked after these steps. A rollback has no reply. -/
def heldAfter (held : Option (List String)) : List Reply → List Program.Sent →
    Option (List String)
  | _, [] => held
  | replies, .rollback :: rest => heldAfter none replies rest
  | replies, .statement statement :: rest =>
    heldAfter (statement.heldThen held (replyTo replies 0)) (replies.drop 1) rest

/-- Memberships of a stream are changed only while its head is locked. -/
def HeadFirst {α : Type} (replies : List Reply) (t : Program.Transcript α) : Prop :=
  ∀ (before after : List Program.Sent) (statement : Statement),
    t.sent = before ++ .statement statement :: after →
      ∀ stream ∈ statement.membersChanged,
        ∃ held, heldAfter none replies before = some held ∧ stream ∈ held

/-! ## The order within a script -/

/-- In a list of statements every stream whose memberships are changed has had its head
locked, by one of these statements or before. -/
def LockedInOrder (held : List String) : List Statement → Prop
  | [] => True
  | statement :: rest =>
    (∀ stream ∈ statement.membersChanged, stream ∈ held) ∧
      LockedInOrder (held ++ statement.headsLocked) rest

theorem LockedInOrder.mem_of_beginning {held : List String} {script earlier : List Statement}
    {statement : Statement} (h : LockedInOrder held script)
    (hbeginning : earlier ++ [statement] <+: script) {stream : String}
    (hstream : stream ∈ statement.membersChanged) :
    stream ∈ held ++ earlier.flatMap Statement.headsLocked := by
  induction earlier generalizing held script with
  | nil =>
      obtain ⟨rest, rfl⟩ := hbeginning
      simpa using h.1 stream hstream
  | cons first earlier ih =>
      obtain ⟨rest, rfl⟩ := hbeginning
      simpa using ih h.2 ⟨rest, rfl⟩

theorem stream_of_mem_membershipRows {stream : String} {current : Int} {ids : List Uuid}
    {row : MembershipRow} (h : row ∈ membershipRows stream current ids) :
    row.stream = stream := by
  induction ids generalizing current with
  | nil => cases h
  | cons id rest ih =>
      cases h with
      | head => rfl
      | tail _ h => exact ih h

variable {ε α : Type} [EventType ε]

/-- What is stored or linked goes into a stream whose head has been locked. -/
theorem Task.lockedInOrder {task : Task ε} (h : task ≠ .delete) (stream : String)
    (current : Int) : LockedInOrder [] (task.script stream current) := by
  have hrows : ∀ ids : List Uuid, ∀ changed ∈
      (Statement.insertMemberships (membershipRows stream current ids)).membersChanged,
      changed = stream := by
    intro ids changed hchanged
    obtain ⟨row, hrow, rfl⟩ := List.mem_map.mp hchanged
    exact stream_of_mem_membershipRows hrow
  cases task with
  | store now staged expected =>
      simpa [Task.script, Task.body, LockedInOrder, Statement.headsLocked,
        Statement.membersChanged] using hrows (staged.map Staged.eventId)
  | link ids expected =>
      simpa [Task.script, Task.body, LockedInOrder, Statement.headsLocked,
        Statement.membersChanged] using hrows ids
  | delete => exact absurd rfl h

/-- A transaction is begun once. -/
theorem Task.exists_body_eq (stream : String) (current : Int) (task : Task ε) :
    ∃ rest, task.body stream current = .begin :: rest ∧ .begin ∉ rest := by
  cases task <;> exact ⟨_, rfl, by simp⟩

/-! ## The order within a conversation -/

theorem went_cons_iff {replies : List Reply} {first : Statement} {rest : List Statement} :
    Went replies (first :: rest) ↔
      first.failure? (replyTo replies 0) = none ∧ Went (replies.drop 1) rest := by
  have hreply : ∀ place, replyTo (replies.drop 1) place = replyTo replies (place + 1) := by
    intro place
    rw [replyTo, replyTo, List.getElem?_drop, Nat.add_comm]
  constructor
  · intro h
    refine ⟨h 0 first rfl, fun place statement hplace => ?_⟩
    rw [hreply]
    exact h (place + 1) statement (by simpa using hplace)
  · rintro ⟨hfirst, hrest⟩ place statement hplace
    cases place with
    | zero =>
        cases hplace
        exact hfirst
    | succ place =>
        rw [← hreply]
        exact hrest place statement (by simpa using hplace)

/-- Inside a transaction locks add up. -/
theorem heldAfter_of_went {replies : List Reply} {held : List String} {sent : List Statement}
    (went : Went replies sent) (hbegin : .begin ∉ sent) (hcommit : .commit ∉ sent) :
    heldAfter (some held) replies (sent.map .statement) =
      some (held ++ sent.flatMap Statement.headsLocked) := by
  induction sent generalizing replies held with
  | nil => simp [heldAfter]
  | cons first rest ih =>
      obtain ⟨hfirst, hrest⟩ := went_cons_iff.mp went
      have hheld : first.heldThen (some held) (replyTo replies 0) =
          some (held ++ first.headsLocked) := by
        unfold Statement.heldThen
        rw [hfirst]
        cases first with
        | begin => exact absurd List.mem_cons_self hbegin
        | commit => exact absurd List.mem_cons_self hcommit
        | _ => rfl
      rw [List.map_cons, heldAfter, hheld,
        ih hrest (List.not_mem_of_not_mem_cons hbegin) (List.not_mem_of_not_mem_cons hcommit)]
      simp

/-- Where a statement has been sent, only statements have been sent before. -/
theorem Disciplined.exists_split {task : Task ε} {stream : String} {replies : List Reply}
    {t : Program.Transcript α} (h : Disciplined task stream replies t)
    {before after : List Program.Sent} {statement : Statement}
    (hsent : t.sent = before ++ .statement statement :: after) :
    ∃ earlier later : List Statement, before = earlier.map .statement ∧
      t.statements = earlier ++ statement :: later := by
  obtain ⟨tail, htail, hsplit⟩ : ∃ tail : List Program.Sent, (∀ step ∈ tail, step = .rollback) ∧
      t.statements.map .statement ++ tail = before ++ .statement statement :: after := by
    rcases h.closed with hclosed | hclosed
    · exact ⟨[], by simp, by rw [← hsent, hclosed, List.append_nil]⟩
    · exact ⟨[.rollback], by simp, by rw [← hsent, hclosed]⟩
  have hnotMem : Program.Sent.statement statement ∉ tail := fun hmem => nomatch htail _ hmem
  rcases List.append_eq_append_iff.mp hsplit with ⟨middle, -, hmiddle⟩ | ⟨middle, hmap, hmiddle⟩
  · exact absurd (by simp [hmiddle]) hnotMem
  · cases middle with
    | nil => exact absurd (by simp [← show _ = tail from hmiddle]) hnotMem
    | cons first rest =>
        rw [List.cons_append, List.cons.injEq] at hmiddle
        obtain ⟨earlier, others, hstatements, hbefore, hothers⟩ := List.map_eq_append_iff.mp hmap
        obtain ⟨_, later, rfl, hfirst, -⟩ := List.map_eq_cons_iff.mp hothers
        rw [← hmiddle.1] at hfirst
        cases hfirst
        exact ⟨earlier, later, hbefore.symm, hstatements⟩

/-- What has been sent before another statement has not failed. -/
theorem Disciplined.went_earlier {task : Task ε} {stream : String} {replies : List Reply}
    {t : Program.Transcript α} (h : Disciplined task stream replies t)
    {earlier later : List Statement} {statement : Statement}
    (hstatements : t.statements = earlier ++ statement :: later) : Went replies earlier := by
  intro place sent hplace
  have hlt : place < earlier.length := (List.getElem?_eq_some_iff.mp hplace).1
  cases hfails : sent.failure? (replyTo replies place) with
  | none => rfl
  | some failure =>
      have hsent : t.statements[place]? = some sent := by
        rw [hstatements, List.getElem?_append_left hlt, hplace]
      have hlast := (h.failed place sent failure hsent hfails).1
      rw [hstatements, List.length_append, List.length_cons] at hlast
      omega

/-- In a transaction that has gone well this far, the heads are held that its statements
have locked. -/
theorem Disciplined.heldAfter_eq {task : Task ε} {stream : String} {replies : List Reply}
    {t : Program.Transcript α} (h : Disciplined task stream replies t)
    {earlier later : List Statement} {statement : Statement} (hne : earlier ≠ [])
    (hstatements : t.statements = earlier ++ statement :: later) :
    heldAfter none replies (earlier.map .statement) =
      some (earlier.flatMap Statement.headsLocked) := by
  have went := h.went_earlier hstatements
  have hbody : earlier <+: task.body stream (task.current replies) := by
    obtain ⟨rest, hrest⟩ := h.inOrder
    rw [hstatements, List.append_assoc, List.cons_append, Task.script] at hrest
    rcases List.append_eq_append_iff.mp hrest with ⟨middle, hbody, -⟩ | ⟨middle, hbody, hlast⟩
    · exact ⟨middle, hbody.symm⟩
    · have hmiddle : middle = [] := by
        have hlength := congrArg List.length hlast
        rw [List.length_singleton, List.length_append, List.length_cons] at hlength
        exact List.eq_nil_of_length_eq_zero (by omega)
      exact ⟨[], by rw [hbody, hmiddle, List.append_nil, List.append_nil]⟩
  have hbegins := h.begins
  rw [hstatements] at hbegins
  cases earlier with
  | nil => exact absurd rfl hne
  | cons first rest =>
      cases hbegins
      obtain ⟨hbegin, hrest⟩ := went_cons_iff.mp went
      have hheld : Statement.begin.heldThen none (replyTo replies 0) = some [] := by
        unfold Statement.heldThen
        rw [hbegin]
      have hcommit : .commit ∉ rest := fun hmem =>
        task.commit_notMem_body stream _ (hbody.subset (List.mem_cons_of_mem _ hmem))
      have hbegin : .begin ∉ rest := by
        obtain ⟨others, hothers, hnotMem⟩ := task.exists_body_eq stream (task.current replies)
        rw [hothers, List.cons_prefix_cons] at hbody
        exact fun hmem => hnotMem (hbody.2.subset hmem)
      rw [List.map_cons, heldAfter, hheld, heldAfter_of_went hrest hbegin hcommit]
      rfl

/-- A task that is written in this order takes the head of a stream before it changes the
memberships. -/
theorem Disciplined.headFirst {task : Task ε} {stream : String} {replies : List Reply}
    {t : Program.Transcript α} (h : Disciplined task stream replies t) (hne : task ≠ .delete) :
    HeadFirst replies t := by
  intro before after statement hsent changed hchanged
  obtain ⟨earlier, later, rfl, hstatements⟩ := h.exists_split hsent
  have inOrder : earlier ++ [statement] <+: task.script stream (task.current replies) :=
    List.IsPrefix.trans ⟨later, by simp [hstatements]⟩ h.inOrder
  have hlocked := (Task.lockedInOrder hne stream _).mem_of_beginning inOrder hchanged
  rw [List.nil_append] at hlocked
  have hne : earlier ≠ [] := by
    rintro rfl
    cases hlocked
  exact ⟨_, h.heldAfter_eq hne hstatements, hlocked⟩

/-! ## The three writes -/

variable {stream : String} {replies : List Reply}

/-- A conversation that changes no memberships needs no head. -/
theorem headFirst_of_unchanged {t : Program.Transcript α}
    (h : ∀ statement, .statement statement ∈ t.sent → statement.membersChanged = []) :
    HeadFirst replies t := by
  intro before after statement hsent changed hchanged
  rw [h statement (by simp [hsent])] at hchanged
  cases hchanged

theorem headFirst_of_nothing_sent {t : Program.Transcript α} (h : t.sent = []) :
    HeadFirst replies t := by
  refine headFirst_of_unchanged fun statement hmem => ?_
  rw [h] at hmem
  cases hmem

theorem headFirst_append (draw : Draw) (batch : List (Envelope ε)) (expected : Option Int) :
    HeadFirst replies ((append draw stream batch expected).follow replies) := by
  by_cases h : ∃ e, AppendRefused stream batch e
  · obtain ⟨e, h⟩ := h
    rw [follow_append_of_refused draw h expected]
    exact headFirst_of_nothing_sent rfl
  · obtain ⟨hstream, staged, hstaged⟩ := exists_staged_of_not_refused draw (not_exists.mp h)
    exact (course_append draw hstream hstaged expected).disciplined.headFirst (by simp)

theorem headFirst_link (ids : List Uuid) (expected : Option Int) :
    HeadFirst replies ((link stream ids expected).follow replies) := by
  by_cases hstream : stream = ""
  · rw [link, requireStreamId, if_pos hstream]
    exact headFirst_of_nothing_sent rfl
  · have course : Course (.link ids expected : Task OrderEvent) stream replies _ :=
      course_link hstream ids expected
    exact course.disciplined.headFirst (by simp)

/-- What a deletion sends, whether or not the transaction can be begun. -/
theorem sent_delete (hstream : stream ≠ "") (replies : List Reply) :
    match replyTo replies 0 with
    | .failed _ => ((delete stream).follow replies).sent = [.statement .begin]
    | .table _ => ∃ after, ((delete stream).follow replies).sent =
        [.statement .begin] ++ .statement (.deleteMemberships stream) :: after := by
  have hdelete : ∃ work, delete stream =
      Program.transaction (Program.execute (.deleteMemberships stream) >>= work) := by
    rw [delete, requireStreamId, if_neg hstream]
    exact ⟨_, rfl⟩
  obtain ⟨work, hdelete⟩ := hdelete
  rw [hdelete, Program.follow_transaction]
  cases replyTo replies 0 with
  | failed failure => rfl
  | table rows =>
      dsimp only
      rw [Program.execute_eq_ask, Program.resume_settle_ask]
      cases replyTo replies [Statement.begin].length with
      | failed failure => exact ⟨_, rfl⟩
      | table rows => exact ⟨_, rfl⟩

/-- A deletion takes the head first only if it does not get as far as the memberships. -/
theorem headFirst_delete_iff :
    HeadFirst replies ((delete stream).follow replies) ↔
      stream = "" ∨ ∃ failure, replyTo replies 0 = .failed failure := by
  by_cases hstream : stream = ""
  · refine iff_of_true ?_ (.inl hstream)
    rw [delete, requireStreamId, if_pos hstream]
    exact headFirst_of_nothing_sent rfl
  have hsent := sent_delete hstream replies
  cases hreply : replyTo replies 0 with
  | failed failure =>
      rw [hreply] at hsent
      refine iff_of_true (headFirst_of_unchanged fun statement hmem => ?_) (.inr ⟨failure, rfl⟩)
      rw [show _ = _ from hsent, List.mem_singleton] at hmem
      cases hmem
      rfl
  | table rows =>
      rw [hreply] at hsent
      obtain ⟨after, hsent⟩ := hsent
      refine iff_of_false (fun h => ?_) (by simp [hstream])
      obtain ⟨held, hheld, hmem⟩ := h _ _ _ hsent stream List.mem_cons_self
      have hnone : heldAfter none replies [.statement .begin] = some [] := by
        simp [heldAfter, Statement.heldThen, hreply, Statement.failure?]
      rw [hnone] at hheld
      cases hheld
      cases hmem

/-- Against every server, what is stored or linked goes behind a head that has been locked,
while a deletion that is begun deletes memberships with no head locked. -/
theorem writers_lock_head (draw : Draw) (stream : String) (batch : List (Envelope ε))
    (ids : List Uuid) (expected : Option Int) (replies : List Reply) :
    HeadFirst replies ((append draw stream batch expected).follow replies) ∧
      HeadFirst replies ((link stream ids expected).follow replies) ∧
      (HeadFirst replies ((delete stream).follow replies) ↔
        stream = "" ∨ ∃ failure, replyTo replies 0 = .failed failure) :=
  ⟨headFirst_append draw batch expected, headFirst_link ids expected, headFirst_delete_iff⟩

/-- A deletion against a server that carries out everything. -/
theorem not_headFirst_delete : ¬ HeadFirst [] ((delete "s").follow []) := by
  intro h
  obtain ⟨held, hheld, hmem⟩ := h [.statement .begin] _ (.deleteMemberships "s") rfl "s" (by decide)
  cases hheld
  cases hmem

end EventLog.Postgres
