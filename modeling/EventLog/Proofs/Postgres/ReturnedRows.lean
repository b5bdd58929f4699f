/-
# The order of returned rows

A server that inserts memberships returns where it put them, and may do so in any order. Which
event is at which place is not among what it returns: a row has a version and a position, and
the event is found by counting. So three lists have to keep in step, the events of the batch, the
memberships that were sent for them, and the rows that came back.

They are kept in step by the version. A membership is numbered by its place in the batch, a row is
told from the others by its version (`mergeSort_eq_placesBehind`), and so the sorted rows stand
beside the events whatever order they had. `Cooperates` is all that is asked of a server: it
carries out what it is sent, it says at what version the head is, and it returns one row for each
membership.
-/

import EventLog.Proofs.Postgres.Discipline
import Mathlib.Data.List.Sort

namespace EventLog.Postgres

variable {ε α : Type}

/-- The places of `n` memberships behind a version, each at the position of its version. -/
def placesBehind (position : Int → Int) (current : Int) (n : Nat) : List Place :=
  (List.range n).map fun (i : Nat) => ⟨current + i + 1, position (current + i + 1)⟩

/-- Every statement is carried out. The statement at place `locking` finds the head at version
`current`, and the one at place `inserting` has put `n` memberships behind it, which it returns in
any order. -/
structure Cooperates (replies : List Reply) (locking inserting : Nat) (current : Int)
    (position : Int → Int) (n : Nat) : Prop where
  carriedOut : ∀ place, ∃ rows, replyTo replies place = .table rows
  locked : ∃ rows, replyTo replies locking = .table rows ∧ headIn rows = .ok current
  inserted : ∃ rows returned, replyTo replies inserting = .table rows ∧
    placesIn rows = .ok returned ∧ returned.Perm (placesBehind position current n)

/-- The statement at place `asking` finds all of these events. -/
def Knows (replies : List Reply) (asking : Nat) (ids : List Uuid) : Prop :=
  ∃ rows known, replyTo replies asking = .table rows ∧ idsIn rows = .ok known ∧
    ∀ id ∈ ids, id ∈ known

/-! ## Keeping in step -/

theorem position_of_mem_placesBehind {position : Int → Int} {current : Int} {n : Nat}
    {place : Place} (h : place ∈ placesBehind position current n) :
    place.position = position place.version := by
  obtain ⟨i, -, rfl⟩ := List.mem_map.mp h
  rfl

theorem getElem?_placesBehind {position : Int → Int} {current : Int} {n i : Nat} (h : i < n) :
    (placesBehind position current n)[i]? =
      some ⟨current + i + 1, position (current + i + 1)⟩ := by
  rw [placesBehind, List.getElem?_map, List.getElem?_range h, Option.map_some]

@[simp] theorem length_placesBehind (position : Int → Int) (current : Int) (n : Nat) :
    (placesBehind position current n).length = n := by
  rw [placesBehind, List.length_map, List.length_range]

theorem pairwise_placesBehind (position : Int → Int) (current : Int) (n : Nat) :
    (placesBehind position current n).Pairwise fun a b => a.version ≤ b.version := by
  rw [placesBehind, List.pairwise_map]
  refine List.pairwise_lt_range.imp fun {i j} (hlt : i < j) => ?_
  dsimp only
  omega

/-- In the order of their versions the places are what they are, in whatever order they came. -/
theorem mergeSort_eq_placesBehind {position : Int → Int} {current : Int} {n : Nat}
    {returned : List Place} (h : returned.Perm (placesBehind position current n)) :
    (returned.mergeSort fun a b => a.version ≤ b.version) = placesBehind position current n := by
  have htotal : Std.Total fun a b : Place => a.version ≤ b.version := ⟨fun _ _ => Int.le_total _ _⟩
  have htrans : IsTrans Place fun a b => a.version ≤ b.version := ⟨fun _ _ _ => Int.le_trans⟩
  have hsorted : (returned.mergeSort fun a b => a.version ≤ b.version).Pairwise
      fun a b => a.version ≤ b.version := List.pairwise_mergeSort' _ returned
  have hperm := (List.mergeSort_perm returned fun a b => a.version ≤ b.version).trans h
  -- Two places at one version are one place, since both are where that version is.
  refine hperm.eq_of_pairwise (fun a b ha hb hab hba => ?_) hsorted
    (pairwise_placesBehind position current n)
  have hversion : a.version = b.version := Int.le_antisymm hab hba
  have hposition : a.position = b.position := by
    rw [position_of_mem_placesBehind (hperm.subset ha), position_of_mem_placesBehind hb, hversion]
  cases a
  cases b
  exact congr (congrArg Place.mk hversion) hposition

/-! ## Inside the transaction -/

section Transaction

variable {replies : List Reply} {sent : List Statement}

/-- A statement that is sent for its effect has it. -/
theorem resume_execute {statement : Statement} {next : Unit → Program (Program.Verdict α)}
    (h : ∃ rows, replyTo replies sent.length = .table rows) :
    Program.resume replies sent (Program.settle (Program.execute statement >>= next)) =
      Program.resume replies (sent ++ [statement]) (Program.settle (next ())) := by
  obtain ⟨rows, hreply⟩ := h
  rw [Program.execute_eq_ask]
  exact Program.resume_settle_ask_of_ok hreply rfl

variable {stream : String} {locking inserting n : Nat} {current : Int} {position : Int → Int}

/-- The head is locked, and found where the writer expects it. -/
theorem resume_lockHead {expected : Option Int} {next : Int → Program (Program.Verdict α)}
    (h : Cooperates replies locking inserting current position n)
    (hexpected : versionMatches expected current) (hplace : locking = sent.length + 1) :
    Program.resume replies sent (Program.settle (lockHead stream expected >>= next)) =
      Program.resume replies (sent ++ [.ensureHead stream] ++ [.lockHead stream])
        (Program.settle (next current)) := by
  obtain ⟨rows, hreply, hhead⟩ := h.locked
  have hlock : replyTo replies (sent ++ [Statement.ensureHead stream]).length = .table rows := by
    rw [List.length_append, List.length_singleton, ← hplace, hreply]
  rw [lockHead, bind_assoc, resume_execute (h.carriedOut _), bind_assoc,
    Program.fetchOne_lockHead_eq_ask, Program.resume_settle_ask_of_ok hlock hhead]
  obtain rfl | rfl := hexpected
  · rw [pure_bind]
  · dsimp only
    rw [if_pos rfl, pure_bind]

/-- Memberships are inserted and the head is moved; the places are in the order of the events. -/
theorem resume_insertMembers {ids : List Uuid} {next : List Place → Program (Program.Verdict α)}
    (h : Cooperates replies locking inserting current position n) (hplace : inserting = sent.length)
    (hcount : n = ids.length) :
    Program.resume replies sent (Program.settle (insertMembers stream current ids >>= next)) =
      Program.resume replies
        (sent ++ [.insertMemberships (ids.mapIdx fun i id => ⟨stream, current + i + 1, id⟩)] ++
          [.moveHead stream (current + n)])
        (Program.settle (next (placesBehind position current n))) := by
  obtain ⟨rows, returned, hreply, hplaces, hperm⟩ := h.inserted
  subst hplace hcount
  rw [insertMembers, bind_assoc, Program.fetchAll_eq_ask]
  refine (Program.resume_settle_ask_of_ok hreply hplaces).trans ?_
  rw [bind_assoc, resume_execute (h.carriedOut _), pure_bind, mergeSort_eq_placesBehind hperm,
    membershipRows_eq_mapIdx]

theorem resume_commit {a : α} (h : ∃ rows, replyTo replies sent.length = .table rows) :
    Program.resume replies sent (Program.settle (pure (.commit a))) =
      ⟨(sent ++ [Statement.commit]).map .statement, .ok a, replies.drop (sent.length + 1)⟩ := by
  obtain ⟨rows, hreply⟩ := h
  rw [Program.resume_settle_commit, hreply]

end Transaction

/-! ## What is sent and what is answered -/

variable [EventType ε]

/-- The event of a batch at index `i`, as an append returns it. -/
def returnedAs (draw : Draw) (current : Int) (position : Int → Int) (i : Nat)
    (envelope : Envelope ε) : Envelope ε where
  eventId := some (draw.eventId i)
  aggregateId := envelope.aggregateId
  version := some (current + i + 1)
  position := some (position (current + i + 1))
  headers := envelope.headers.stamp draw.now (draw.correlationId i)
  event := envelope.event

/-- The row for the body of that event, if this is its payload. -/
def sentAs (draw : Draw) (i : Nat) (envelope : Envelope ε) (payload : String) : EventRow where
  eventId := draw.eventId i
  name := envelope.eventName
  payload := payload
  metadata := (envelope.headers.stamp draw.now (draw.correlationId i)).metadata
  createdAt := draw.now

section Batch

variable {draw : Draw} {batch : List (Envelope ε)} {staged : List (Staged ε)}

/-- Prepared events beside the places behind a version are the events of the batch at them. -/
theorem zipWith_persistedAs (hstaged : Staged.ofEnvelopes draw 0 batch = .ok staged)
    (position : Int → Int) (current : Int) :
    List.zipWith (fun entry place =>
        entry.envelope.persistedAs entry.eventId place.version place.position) staged
      (placesBehind position current batch.length) =
      batch.mapIdx (returnedAs draw current position) := by
  refine List.ext_getElem? fun i => ?_
  rw [List.getElem?_zipWith, List.getElem?_mapIdx]
  cases henvelope : batch[i]? with
  | none =>
      have hlength := List.getElem?_eq_none_iff.mp henvelope
      rw [List.getElem?_eq_none (by rwa [Staged.length_of_ofEnvelopes hstaged])]
      rfl
  | some envelope =>
      obtain ⟨hlt, -⟩ := List.getElem?_eq_some_iff.mp henvelope
      obtain ⟨entry, hentry, hprepared⟩ := Staged.getElem?_of_ofEnvelopes hstaged henvelope
      obtain ⟨-, hid, hstamped⟩ := Staged.ofEnvelope_eq_ok_iff.mp hprepared
      rw [hentry, getElem?_placesBehind hlt]
      dsimp only [Option.map_some]
      rw [hstamped, hid, Nat.zero_add]
      rfl

/-- Each body is sent under the identifier that was drawn for its event. -/
theorem getElem?_eventRows (hstaged : Staged.ofEnvelopes draw 0 batch = .ok staged) {i : Nat}
    {envelope : Envelope ε} (h : batch[i]? = some envelope) :
    ∃ payload, envelope.event.marshal = .ok payload ∧
      (staged.map (eventRow draw.now))[i]? = some (sentAs draw i envelope payload) := by
  obtain ⟨entry, hentry, hprepared⟩ := Staged.getElem?_of_ofEnvelopes hstaged h
  obtain ⟨hpayload, hid, hstamped⟩ := Staged.ofEnvelope_eq_ok_iff.mp hprepared
  refine ⟨entry.payload, hpayload, ?_⟩
  rw [List.getElem?_map, hentry, Option.map_some, eventRow, hstamped, hid, Nat.zero_add]
  rfl

/-- So is each membership. -/
theorem mapIdx_eventIds (hstaged : Staged.ofEnvelopes draw 0 batch = .ok staged) (stream : String)
    (current : Int) :
    ((staged.map Staged.eventId).mapIdx fun i id =>
        (⟨stream, current + i + 1, id⟩ : MembershipRow)) =
      batch.mapIdx fun i _ => ⟨stream, current + i + 1, draw.eventId i⟩ := by
  rw [Staged.map_eventId_of_ofEnvelopes hstaged]
  refine List.ext_getElem (by simp) fun i hi hbatch => ?_
  simp

end Batch

variable {stream : String} {expected : Option Int} {current : Int} {position : Int → Int}
  {replies : List Reply}

theorem follow_append_of_cooperates {draw : Draw} {batch : List (Envelope ε)}
    {staged : List (Staged ε)} (hstream : stream ≠ "") (hexpected : versionMatches expected current)
    (hbatch : batch ≠ []) (hstaged : Staged.ofEnvelopes draw 0 batch = .ok staged)
    (h : Cooperates replies 2 4 current position batch.length) :
    (append draw stream batch expected).follow replies =
      ⟨[Statement.begin, .ensureHead stream, .lockHead stream,
          .insertEvents (staged.map (eventRow draw.now)),
          .insertMemberships (batch.mapIdx fun i _ => ⟨stream, current + i + 1, draw.eventId i⟩),
          .moveHead stream (current + batch.length), .commit].map .statement,
        .ok (batch.mapIdx (returnedAs draw current position)), replies.drop 7⟩ := by
  have hlength := Staged.length_of_ofEnvelopes hstaged
  have hcount : batch.length = (staged.map Staged.eventId).length := by
    rw [List.length_map, hlength]
  have hsome : ¬ staged.isEmpty = true := by
    rw [List.isEmpty_iff_length_eq_zero, hlength]
    exact mt List.length_eq_zero_iff.mp hbatch
  obtain ⟨begun, hbegun⟩ := h.carriedOut 0
  rw [append_eq hstream hstaged]
  refine (Program.follow_transaction replies _).trans ?_
  rw [hbegun]
  refine (resume_lockHead h hexpected (by rfl)).trans ?_
  rw [if_neg hsome, resume_execute (h.carriedOut _)]
  refine (resume_insertMembers h (by rfl) hcount).trans ?_
  rw [resume_commit (h.carriedOut _), zipWith_persistedAs hstaged, mapIdx_eventIds hstaged]
  rfl

omit [EventType ε] in
/-- A link that finds its events and the head goes on like this, whatever there is to be linked. -/
theorem follow_link {ids : List Uuid} (hstream : stream ≠ "")
    (hexpected : versionMatches expected current) (hknows : Knows replies 1 ids)
    (h : Cooperates replies 3 4 current position ids.length) :
    (link stream ids expected).follow replies =
      Program.resume replies [.begin, .knownEvents ids, .ensureHead stream, .lockHead stream]
        (Program.settle (if ids.isEmpty then pure (.abandon current) else do
          let places ← insertMembers stream current ids
          return .commit (current + places.length))) := by
  obtain ⟨begun, hbegun⟩ := h.carriedOut 0
  obtain ⟨rows, known, hreply, hids, hfound⟩ := hknows
  have hnone : (ids.find? fun id => !known.contains id) = none := by
    simpa using hfound
  rw [link, requireStreamId, if_neg hstream]
  refine (Program.follow_transaction replies _).trans ?_
  rw [hbegun, Program.fetchAll_eq_ask]
  refine (Program.resume_settle_ask_of_ok hreply hids).trans ?_
  rw [hnone]
  exact resume_lockHead h hexpected (by rfl)

omit [EventType ε] in
theorem follow_link_of_cooperates {ids : List Uuid} (hstream : stream ≠ "")
    (hexpected : versionMatches expected current) (hknows : Knows replies 1 ids) (hids : ids ≠ [])
    (h : Cooperates replies 3 4 current position ids.length) :
    (link stream ids expected).follow replies =
      ⟨[Statement.begin, .knownEvents ids, .ensureHead stream, .lockHead stream,
          .insertMemberships (ids.mapIdx fun i id => ⟨stream, current + i + 1, id⟩),
          .moveHead stream (current + ids.length), .commit].map .statement,
        .ok (current + ids.length), replies.drop 7⟩ := by
  have hsome : ¬ ids.isEmpty = true := mt List.isEmpty_iff.mp hids
  rw [follow_link hstream hexpected hknows h, if_neg hsome]
  refine (resume_insertMembers h (by rfl) rfl).trans ?_
  rw [resume_commit (h.carriedOut _), length_placesBehind]
  rfl

/-- A server that cooperates may return the places of the memberships in any order. An append
that is not empty answers with its batch all the same: each event under the identifier that was
drawn for it, at the version that its place in the batch gives it, and at the position of that
version. The rows that were sent for its body and for its membership carry that identifier too,
and the head is moved behind the last of them. A link returns the version of the last one. -/
theorem returned_order_immaterial (draw : Draw) (current : Int) (position : Int → Int)
    (hstream : stream ≠ "") (hexpected : versionMatches expected current) :
    (∀ (batch : List (Envelope ε)) (replies : List Reply), batch ≠ [] →
      (∀ envelope ∈ batch, ∃ payload, envelope.event.marshal = .ok payload) →
      Cooperates replies 2 4 current position batch.length →
        ((append draw stream batch expected).follow replies).answer =
            .ok (batch.mapIdx (returnedAs draw current position)) ∧
          ∃ rows : List EventRow, rows.length = batch.length ∧
            (∀ i envelope, batch[i]? = some envelope →
              ∃ payload, envelope.event.marshal = .ok payload ∧
                rows[i]? = some (sentAs draw i envelope payload)) ∧
            ((append draw stream batch expected).follow replies).sent =
              [Statement.begin, .ensureHead stream, .lockHead stream, .insertEvents rows,
                .insertMemberships (batch.mapIdx fun i _ =>
                  ⟨stream, current + i + 1, draw.eventId i⟩),
                .moveHead stream (current + batch.length), .commit].map .statement) ∧
    ∀ (ids : List Uuid) (replies : List Reply), Knows replies 1 ids →
      Cooperates replies 3 4 current position ids.length →
        ((link stream ids expected).follow replies).answer = .ok (current + ids.length) ∧
          (ids ≠ [] → ((link stream ids expected).follow replies).sent =
            [Statement.begin, .knownEvents ids, .ensureHead stream, .lockHead stream,
              .insertMemberships (ids.mapIdx fun i id => ⟨stream, current + i + 1, id⟩),
              .moveHead stream (current + ids.length), .commit].map .statement) := by
  refine ⟨fun batch replies hbatch hencodable h => ?_, fun ids replies hknows h => ?_⟩
  · obtain ⟨staged, hstaged⟩ := Staged.exists_ofEnvelopes draw 0 hencodable
    rw [follow_append_of_cooperates hstream hexpected hbatch hstaged h]
    refine ⟨rfl, staged.map (eventRow draw.now), ?_, fun i envelope => getElem?_eventRows hstaged,
      rfl⟩
    rw [List.length_map, Staged.length_of_ofEnvelopes hstaged]
  · by_cases hids : ids = []
    · subst hids
      refine ⟨?_, fun hsome => absurd rfl hsome⟩
      rw [follow_link hstream hexpected hknows h]
      simp [Program.resume_settle_abandon, Program.brokenOff]
    · rw [follow_link_of_cooperates hstream hexpected hknows hids h]
      exact ⟨rfl, fun _ => rfl⟩

/-- Two notes behind the four events of a stream, whose places come back the last one first. -/
theorem returned_order_immaterial_backwards :
    let note (text : String) : Envelope OrderEvent := .fresh "agg" (.raw "Noted" text)
    let draw := countingSupply 0
    let position (version : Int) : Int := 2 * version - 3
    let head : Reply := .table ⟨[⟨"last_version", .int8⟩], [[.int 4]]⟩
    let places : Reply := .table
      ⟨[⟨"stream_version", .int8⟩, ⟨"position", .int8⟩], [[.int 6, .int 9], [.int 5, .int 7]]⟩
    let known : Reply := .table
      ⟨[⟨"event_id", .uuid⟩], [[.uuid (draw.eventId 1)], [.uuid (draw.eventId 0)]]⟩
    versionMatches (some 4) 4 ∧
      ((append draw "s" [note "1", note "2"] (some 4)).follow
          [.table .none, .table .none, head, .table .none, places]).answer =
        .ok [returnedAs draw 4 position 0 (note "1"), returnedAs draw 4 position 1 (note "2")] ∧
      ((link "s" [draw.eventId 0, draw.eventId 1] (some 4)).follow
          [.table .none, known, .table .none, head, places]).answer = .ok 6 := by
  intro note draw position head places known
  have hexpected : versionMatches (some 4) 4 := .inr rfl
  have hbackwards : [(⟨6, 9⟩ : Place), ⟨5, 7⟩].Perm (placesBehind position 4 2) := .swap _ _ _
  have hreturned : ∃ rows returned, places = .table rows ∧ placesIn rows = .ok returned ∧
      returned.Perm (placesBehind position 4 2) := ⟨_, _, rfl, rfl, hbackwards⟩
  have hstored : Cooperates [.table .none, .table .none, head, .table .none, places] 2 4 4
      position 2 :=
    { carriedOut := by rintro (_ | _ | _ | _ | _ | place) <;> exact ⟨_, rfl⟩
      locked := ⟨_, rfl, rfl⟩
      inserted := hreturned }
  have hlinked : Cooperates [.table .none, known, .table .none, head, places] 3 4 4 position 2 :=
    { carriedOut := by rintro (_ | _ | _ | _ | _ | place) <;> exact ⟨_, rfl⟩
      locked := ⟨_, rfl, rfl⟩
      inserted := hreturned }
  have hknows : Knows [.table .none, known, .table .none, head, places] 1
      [draw.eventId 0, draw.eventId 1] := ⟨_, _, rfl, rfl, by simp⟩
  have hencodable : ∀ envelope ∈ [note "1", note "2"],
      ∃ payload, envelope.event.marshal = .ok payload := by
    simp [note, Envelope.fresh]
  obtain ⟨happend, hlink⟩ := returned_order_immaterial (ε := OrderEvent) draw 4 position
    (by decide : "s" ≠ "") hexpected
  exact ⟨hexpected, (happend [note "1", note "2"] _ (by simp) hencodable hstored).1,
    (hlink _ _ hknows hlinked).1⟩

end EventLog.Postgres
