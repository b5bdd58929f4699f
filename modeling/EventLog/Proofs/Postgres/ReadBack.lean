/-
# Reading back

A row that a read returns was put together from three others: the body of an event, a membership
of it in a stream, and the place that the server gave to the membership. Nothing in a row says
which event of a batch it is of. The body and the membership have the identifier of the event, the
membership and the place have its version, and since neither is used twice the three are of one
event (`InStep.exists_readsBack`).

Headers are bound as text and decoded by other code than that which encoded them. That loses
nothing (`Headers.ofMetadata_metadata`), so a text of headers is the text of one dictionary only.
Entries may stand in any order in it, since a dictionary is asked by name.

Nothing is assumed of a server but what is in `Inserts`. That its replies are such that the append
can be answered is not assumed of them one by one: it is inverted step by step from the answer
(`stored_of_answer`).
-/

import EventLog.Postgres.Tables
import EventLog.Proofs.Dictionary
import EventLog.Proofs.Json.Records
import EventLog.Proofs.Json.RoundTrip
import EventLog.Proofs.Postgres.ReturnedRows

namespace EventLog

/-! ## Headers as text -/

theorem Json.asTextMap_record (entries : List (String × String)) :
    asTextMap (record (entries.map fun entry => (entry.1, ofText entry.2))) = some entries := by
  rw [record, asTextMap, named?_record]
  show (entries.map fun entry => (entry.1, ofText entry.2)).mapM _ = _
  induction entries with
  | nil => rfl
  | cons entry rest ih =>
      rw [List.map_cons, List.mapM_cons, ih]
      rfl

/-- Headers are read back from their text. -/
theorem Headers.ofMetadata_metadata (headers : Headers) :
    ofMetadata headers.metadata = .ok headers := by
  rw [ofMetadata, metadata, Json.ofText?_text, Option.bind_some, Json.asTextMap_record]
  exact congrArg Except.ok (Dictionary.ofList_entries headers)

/-- Different headers have different texts. -/
theorem Headers.metadata_inj {headers other : Headers} (h : headers.metadata = other.metadata) :
    headers = other := by
  have hread := ofMetadata_metadata headers
  rw [h, ofMetadata_metadata] at hread
  exact (Except.ok.inj hread).symm

namespace Postgres

variable {ε α : Type}

/-! ## Rows from what was bound -/

/-- The values bound for the `i`-th of the rows that a statement inserts, if each of them has
this many values. -/
def boundAt (width : Nat) (params : List Param) (i : Nat) : List Param :=
  (params.drop (i * width)).take width

theorem boundAt_flatMap {f : ε → List Param} {width : Nat} (hwidth : ∀ row, (f row).length = width)
    (rows : List ε) (i : Nat) :
    boundAt width (rows.flatMap f) i = (rows[i]?.map f).getD [] := by
  unfold boundAt
  induction rows generalizing i with
  | nil => simp
  | cons row rest ih =>
      rw [List.flatMap_cons]
      cases i with
      | zero => simp [List.take_left' (hwidth row)]
      | succ i =>
          rw [Nat.succ_mul, Nat.add_comm, ← List.drop_drop, List.drop_left' (hwidth row), ih,
            List.getElem?_cons_succ]

theorem boundAt_insertEvents (rows : List EventRow) (i : Nat) :
    boundAt 5 (Statement.insertEvents rows).params i = (rows[i]?.map EventRow.params).getD [] :=
  boundAt_flatMap (f := EventRow.params) (fun _ => rfl) rows i

theorem boundAt_insertMemberships (rows : List MembershipRow) (i : Nat) :
    boundAt 3 (Statement.insertMemberships rows).params i =
      (rows[i]?.map MembershipRow.params).getD [] :=
  boundAt_flatMap (f := MembershipRow.params) (fun _ => rfl) rows i

/-- One text of headers is another one with its entries in another order. -/
def SameHeaders (metadata text : String) : Prop :=
  ∃ headers order : Headers, metadata = headers.metadata ∧ order.entries.Perm headers.entries ∧
    text = order.metadata

theorem SameHeaders.refl (headers : Headers) : SameHeaders headers.metadata headers.metadata :=
  ⟨headers, headers, rfl, .refl _, rfl⟩

/-- The row that a read returns of an event, put together from the values bound for its body, the
values bound for its membership, and the place that was returned for that version. -/
inductive Formed (bodies memberships : List Param) (places : List Place) (id : Uuid) :
    List Cell → Prop
  | row {i j : Nat} {name payload metadata text stream : String} {createdAt : Timestamp}
      {version position : Int}
      (body : boundAt 5 bodies i =
        [.uuid id, .text name, .text payload, .text metadata, .time createdAt])
      (membership : boundAt 3 memberships j = [.text stream, .int version, .uuid id])
      (place : ⟨version, position⟩ ∈ places) (same : SameHeaders metadata text) :
      Formed bodies memberships places id
        [.int version, .int position, .uuid id, .text name, .text payload, .text text]

/-- A row is read as the event it holds. -/
theorem envelopeOfRow_formed (version position : Int) (id : Uuid) (name payload : String)
    (headers : Headers) :
    envelopeOfRow (Tables.readColumns.zip [.int version, .int position, .uuid id, .text name,
      .text payload, .text headers.metadata]) =
        .ok (Envelope.stored id version position headers (.raw name payload) : Envelope ε) := by
  have hstored : StoredRow.ofRow (Tables.readColumns.zip [.int version, .int position, .uuid id,
      .text name, .text payload, .text headers.metadata]) =
      .ok ⟨version, position, id, name, payload, headers.metadata⟩ := rfl
  rw [envelopeOfRow, hstored]
  dsimp only
  rw [Headers.ofMetadata_metadata]
  rfl

/-- What can be decoded row by row is decoded as a whole. -/
theorem exists_mapM_of_forall₂ {β γ : Type} {P : ε → β → Prop} {Q : ε → γ → Prop}
    {f : β → Except Error γ} {events : List ε} {rows : List β} (h : List.Forall₂ P events rows)
    (decodes : ∀ event ∈ events, ∀ row, P event row → ∃ read, f row = .ok read ∧ Q event read) :
    ∃ read, rows.mapM f = .ok read ∧ List.Forall₂ Q events read := by
  induction h with
  | nil => exact ⟨[], rfl, .nil⟩
  | @cons event row events rows hrow _ ih =>
      obtain ⟨read, hread, hevent⟩ := decodes event List.mem_cons_self row hrow
      obtain ⟨others, hothers, hrest⟩ :=
        ih fun other hother => decodes other (List.mem_cons_of_mem _ hother)
      refine ⟨read :: others, ?_, .cons hevent hrest⟩
      rw [List.mapM_cons, hread, hothers]
      rfl

/-- The position of the place at this version. -/
def positionAt (places : List Place) (version : Int) : Int :=
  ((places.find? fun place => place.version = version).map Place.position).getD 0

theorem eq_positionAt_of_mem {places : List Place} {place : Place}
    (distinct : (places.map Place.version).Nodup) (h : place ∈ places) :
    place = ⟨place.version, positionAt places place.version⟩ := by
  have hfound : places.find? (fun other => other.version = place.version) = some place := by
    cases hfind : places.find? fun other => other.version = place.version with
    | none => exact absurd (decide_eq_true rfl) (List.find?_eq_none.mp hfind place h)
    | some other =>
        have hversion := List.find?_some hfind
        rw [List.inj_on_of_nodup_map distinct (List.mem_of_find?_eq_some hfind) h
          (of_decide_eq_true hversion)]
  rw [positionAt, hfound]
  rfl

/-- Places with these versions, one at each of them, are those behind the head. -/
theorem perm_placesBehind {places : List Place} {current : Int} {n : Nat}
    (h : (places.map Place.version).Perm ((List.range n).map fun i : Nat => current + i + 1)) :
    places.Perm (placesBehind (positionAt places) current n) := by
  have hdistinct : (places.map Place.version).Nodup :=
    h.nodup_iff.mpr (List.nodup_range.map fun i j (heq : current + i + 1 = current + j + 1) => by
      omega)
  have hplaces : places =
      (places.map Place.version).map fun version => ⟨version, positionAt places version⟩ :=
    calc places = places.map id := (List.map_id places).symm
      _ = places.map fun place => ⟨place.version, positionAt places place.version⟩ :=
        List.map_congr_left fun _ hplace => eq_positionAt_of_mem hdistinct hplace
      _ = _ := by rw [List.map_map]; rfl
  have hmapped := h.map fun version => (⟨version, positionAt places version⟩ : Place)
  rw [← hplaces, List.map_map] at hmapped
  exact hmapped

/-! ## An append that was answered -/

section Answered

variable {replies : List Reply} {sent : List Statement} {stream : String}

/-- The head was found where the writer expected it. -/
theorem exists_of_resume_lockHead {expected : Option Int}
    {next : Int → Program (Program.Verdict α)} {answer : α}
    (h : (Program.resume replies sent
      (Program.settle (lockHead stream expected >>= next))).answer = .ok answer) :
    ∃ current, Program.resume replies sent (Program.settle (lockHead stream expected >>= next)) =
      Program.resume replies (sent ++ [.ensureHead stream] ++ [.lockHead stream])
        (Program.settle (next current)) := by
  rw [lockHead, bind_assoc, Program.execute_eq_ask] at h ⊢
  obtain ⟨_, _, -, -, hensured⟩ := Program.exists_of_resume_settle_ask h
  rw [hensured, bind_assoc, Program.fetchOne_lockHead_eq_ask] at h ⊢
  obtain ⟨_, current, -, -, hlocked⟩ := Program.exists_of_resume_settle_ask h
  rw [hlocked] at h ⊢
  refine ⟨current, ?_⟩
  cases expected with
  | none => rw [pure_bind]
  | some version =>
      dsimp only at h ⊢
      by_cases hversion : version = current
      · rw [if_pos hversion, pure_bind]
      · rw [if_neg hversion, Program.resume_settle_fail] at h
        cases h

/-- The memberships were inserted where the server says. -/
theorem exists_of_resume_insertMembers {current : Int} {ids : List Uuid}
    {next : List Place → Program (Program.Verdict α)} {answer : α}
    (h : (Program.resume replies sent
      (Program.settle (insertMembers stream current ids >>= next))).answer = .ok answer) :
    ∃ rows places, replyTo replies sent.length = .table rows ∧ placesIn rows = .ok places ∧
      Program.resume replies sent (Program.settle (insertMembers stream current ids >>= next)) =
        Program.resume replies
          (sent ++ [.insertMemberships (membershipRows stream current ids)] ++
            [.moveHead stream (current + ids.length)])
          (Program.settle (next (places.mergeSort fun a b => a.version ≤ b.version))) := by
  rw [insertMembers, bind_assoc, Program.fetchAll_eq_ask] at h ⊢
  obtain ⟨rows, places, hreply, hplaces, hinserted⟩ := Program.exists_of_resume_settle_ask h
  rw [hinserted, bind_assoc, Program.execute_eq_ask] at h ⊢
  obtain ⟨_, _, -, -, hmoved⟩ := Program.exists_of_resume_settle_ask h
  exact ⟨rows, places, hreply, hplaces, hmoved.trans (by rw [pure_bind])⟩

/-- A commit that was answered was carried out. -/
theorem resume_commit_of_answer {a answer : α}
    (h : (Program.resume replies sent (Program.settle (pure (.commit a)))).answer = .ok answer) :
    Program.resume replies sent (Program.settle (pure (.commit a))) =
      ⟨(sent ++ [Statement.commit]).map .statement, .ok a, replies.drop (sent.length + 1)⟩ := by
  cases hreply : replyTo replies sent.length with
  | failed failure =>
      rw [Program.resume_settle_commit, hreply] at h
      cases h
  | table rows => exact resume_commit ⟨rows, hreply⟩

theorem follow_transaction_of_answer {work : Program (Program.Verdict α)} {answer : α}
    (h : ((Program.transaction work).follow replies).answer = .ok answer) :
    (Program.transaction work).follow replies =
      Program.resume replies [.begin] (Program.settle work) := by
  have hbegun := Program.follow_transaction replies work
  cases hreply : replyTo replies 0 with
  | failed failure =>
      rw [hbegun, hreply] at h
      cases h
  | table rows => rw [hbegun, hreply]

end Answered

variable [EventType ε] {draw : Draw} {stream : String} {batch returned : List (Envelope ε)}
  {expected : Option Int} {replies : List Reply}

/-- What an append has sent and returned if it was answered. Nothing is inserted for an empty
batch. -/
inductive Stored (draw : Draw) (stream : String) (staged : List (Staged ε)) (replies : List Reply)
    (returned : List (Envelope ε)) : List Program.Sent → Prop
  | nothing (hstaged : staged = []) (hreturned : returned = []) :
      Stored draw stream staged replies returned
        ([Statement.begin, .ensureHead stream, .lockHead stream].map .statement ++ [.rollback])
  | inserted {current : Int} {rows : Table} {places : List Place}
      (hreply : replyTo replies 4 = .table rows) (hplaces : placesIn rows = .ok places)
      (hreturned : returned = List.zipWith (fun entry place =>
        entry.envelope.persistedAs entry.eventId place.version place.position) staged
        (places.mergeSort fun a b => a.version ≤ b.version)) :
      Stored draw stream staged replies returned
        ([Statement.begin, .ensureHead stream, .lockHead stream,
          .insertEvents (staged.map (eventRow draw.now)),
          .insertMemberships (membershipRows stream current (staged.map Staged.eventId)),
          .moveHead stream (current + (staged.map Staged.eventId).length), .commit].map .statement)

theorem stored_of_answer
    (h : ((append draw stream batch expected).follow replies).answer = .ok returned) :
    ∃ staged, Staged.ofEnvelopes draw 0 batch = .ok staged ∧
      Stored draw stream staged replies returned
        ((append draw stream batch expected).follow replies).sent := by
  have haccepted : ∀ e, ¬ AppendRefused stream batch e := by
    intro e hrefused
    rw [follow_append_of_refused draw hrefused] at h
    cases h
  obtain ⟨hstream, staged, hstaged⟩ := exists_staged_of_not_refused draw haccepted
  refine ⟨staged, hstaged, ?_⟩
  rw [append_eq hstream hstaged] at h ⊢
  have hbegun := follow_transaction_of_answer h
  rw [hbegun, appendPrepared] at h ⊢
  obtain ⟨current, hlocked⟩ := exists_of_resume_lockHead h
  rw [hlocked] at h ⊢
  by_cases hempty : staged = []
  · rw [if_pos (List.isEmpty_iff.mpr hempty), Program.resume_settle_abandon] at h ⊢
    exact .nothing hempty (Except.ok.inj h).symm
  · rw [if_neg fun hnil => hempty (List.isEmpty_iff.mp hnil), Program.execute_eq_ask] at h ⊢
    obtain ⟨_, _, -, -, hbodies⟩ := Program.exists_of_resume_settle_ask h
    rw [hbodies] at h ⊢
    obtain ⟨rows, places, hreply, hplaces, hinserted⟩ := exists_of_resume_insertMembers h
    rw [hinserted] at h ⊢
    have hcommitted := resume_commit_of_answer h
    rw [hcommitted] at h ⊢
    exact .inserted hreply hplaces (Except.ok.inj h).symm

/-! ## The events of a batch -/

/-- These bodies and memberships were sent, and the server inserted them: no identifier stands for
two of the bodies, as the table does not allow that, and for each membership one place was
returned, in any order. -/
structure Inserts (sent : List Program.Sent) (replies : List Reply) (bodies : List EventRow)
    (memberships : List MembershipRow) (places : List Place) : Prop where
  bodies_sent : .statement (.insertEvents bodies) ∈ sent
  memberships_sent : ∃ (place : Nat) (rows : Table),
    sent[place]? = some (.statement (.insertMemberships memberships)) ∧
      replyTo replies place = .table rows ∧ placesIn rows = .ok places
  distinct : (bodies.map EventRow.eventId).Nodup
  versions : (places.map Place.version).Perm (memberships.map MembershipRow.version)

/-- An event as it is read, beside the event that its append returned. -/
structure ReadsBack (returned read : Envelope ε) : Prop where
  eventId : read.eventId = returned.eventId
  version : read.version = returned.version
  position : read.position = returned.position
  name : read.eventName = returned.eventName
  headers : ∀ name, read.header? name = returned.header? name
  payload : ∃ payload, returned.event.marshal = .ok payload ∧ read.event.marshal = .ok payload
  aggregateId : read.aggregateId = (returned.header? aggregateIdHeader).getD ""

/-- What has been bound and returned stands in step with the batch. -/
structure InStep (draw : Draw) (stream : String) (batch returned : List (Envelope ε))
    (bodies : List EventRow) (memberships : List MembershipRow) (places : List Place)
    (current : Int) (position : Int → Int) : Prop where
  returned : returned = batch.mapIdx (returnedAs draw current position)
  body : ∀ {i : Nat} {envelope : Envelope ε}, batch[i]? = some envelope →
    ∃ payload, envelope.event.marshal = .ok payload ∧
      bodies[i]? = some (sentAs draw i envelope payload)
  length : bodies.length = batch.length
  memberships : memberships = batch.mapIdx fun i _ => ⟨stream, current + i + 1, draw.eventId i⟩
  places : places.Perm (placesBehind position current batch.length)

theorem exists_inStep {bodies : List EventRow} {memberships : List MembershipRow}
    {places : List Place}
    (hanswer : ((append draw stream batch expected).follow replies).answer = .ok returned)
    (h : Inserts ((append draw stream batch expected).follow replies).sent replies bodies
      memberships places) :
    ∃ current position,
      InStep draw stream batch returned bodies memberships places current position := by
  obtain ⟨staged, hstaged, hstored⟩ := stored_of_answer hanswer
  obtain ⟨hbodies, ⟨place, rows, hplace, hreply, hplaces⟩, -, hversions⟩ := h
  generalize ((append draw stream batch expected).follow replies).sent = sent at *
  cases hstored with
  | nothing => simp at hbodies
  | @inserted current rows' places' hreply' hplaces' hreturned =>
      obtain rfl : bodies = staged.map (eventRow draw.now) := by simpa using hbodies
      obtain ⟨rfl, hmemberships⟩ : place = 4 ∧ memberships =
          membershipRows stream current (staged.map Staged.eventId) := by
        rcases place with _ | _ | _ | _ | _ | _ | _ | place <;> cases hplace
        exact ⟨rfl, rfl⟩
      rw [membershipRows_eq_mapIdx, mapIdx_eventIds hstaged] at hmemberships
      rw [hreply] at hreply'
      cases hreply'
      rw [hplaces] at hplaces'
      cases hplaces'
      have hnumbered : memberships.map MembershipRow.version =
          (List.range batch.length).map fun i : Nat => current + i + 1 := by
        rw [hmemberships]
        exact List.ext_getElem (by simp) fun i _ _ => by simp
      rw [hnumbered] at hversions
      have hperm := perm_placesBehind hversions
      rw [mergeSort_eq_placesBehind hperm, zipWith_persistedAs hstaged] at hreturned
      exact ⟨current, positionAt places, hreturned, getElem?_eventRows hstaged,
        (List.length_map _).trans (Staged.length_of_ofEnvelopes hstaged), hmemberships, hperm⟩

namespace InStep

variable {bodies : List EventRow} {memberships : List MembershipRow} {places : List Place}
  {current : Int} {position : Int → Int} {original : Envelope ε} {id : Uuid} {cells : List Cell}

section

variable (h : InStep draw stream batch returned bodies memberships places current position)

include h

/-- Every event that was returned has its index in the batch. -/
theorem exists_index (horiginal : original ∈ returned) :
    ∃ i envelope, batch[i]? = some envelope ∧
      original = returnedAs draw current position i envelope := by
  rw [h.returned] at horiginal
  obtain ⟨i, hi, rfl⟩ := List.mem_mapIdx.mp horiginal
  exact ⟨i, batch[i], List.getElem?_eq_getElem hi, rfl⟩

theorem place_mem {i : Nat} {envelope : Envelope ε} (hi : batch[i]? = some envelope) :
    ⟨current + i + 1, position (current + i + 1)⟩ ∈ places :=
  h.places.mem_iff.mpr (List.mem_of_getElem?
    (getElem?_placesBehind (List.getElem?_eq_some_iff.mp hi).1))

/-- Each index of the batch has one identifier. -/
theorem index_eq (distinct : (bodies.map EventRow.eventId).Nodup) {i j : Nat}
    {envelope other : Envelope ε} (hi : batch[i]? = some envelope) (hj : batch[j]? = some other)
    (heq : draw.eventId i = draw.eventId j) : i = j := by
  obtain ⟨_, -, hbody⟩ := h.body hi
  obtain ⟨_, -, hother⟩ := h.body hj
  have hlt : i < (bodies.map EventRow.eventId).length := by
    rw [List.length_map]
    exact (List.getElem?_eq_some_iff.mp hbody).1
  refine (List.getElem?_inj hlt distinct).mp ?_
  rw [List.getElem?_map, hbody, List.getElem?_map, hother, Option.map_some, Option.map_some]
  exact congrArg some heq

/-- A body that was bound is that of an event of the batch. -/
theorem body_of_boundAt {i : Nat} {name payload metadata : String} {createdAt : Timestamp}
    (hbound : boundAt 5 (Statement.insertEvents bodies).params i =
      [.uuid id, .text name, .text payload, .text metadata, .time createdAt]) :
    ∃ envelope, batch[i]? = some envelope ∧ envelope.event.marshal = .ok payload ∧
      ⟨id, name, payload, metadata, createdAt⟩ = sentAs draw i envelope payload := by
  rw [boundAt_insertEvents] at hbound
  cases hbody : bodies[i]? with
  | none =>
      rw [hbody] at hbound
      cases hbound
  | some body =>
      have hlt : i < batch.length := h.length ▸ (List.getElem?_eq_some_iff.mp hbody).1
      obtain ⟨encoded, hmarshal, hsent⟩ := h.body (List.getElem?_eq_getElem hlt)
      rw [hbody] at hbound hsent
      obtain rfl := Option.some.inj hsent
      cases hbound
      exact ⟨_, List.getElem?_eq_getElem hlt, hmarshal, rfl⟩

/-- A membership that was bound is numbered by its index in the batch. -/
theorem membership_of_boundAt {j : Nat} {name : String} {version : Int}
    (hbound : boundAt 3 (Statement.insertMemberships memberships).params j =
      [.text name, .int version, .uuid id]) :
    ∃ envelope, batch[j]? = some envelope ∧ id = draw.eventId j ∧ version = current + j + 1 := by
  rw [boundAt_insertMemberships, h.memberships, List.getElem?_mapIdx] at hbound
  cases henvelope : batch[j]? with
  | none =>
      rw [henvelope] at hbound
      cases hbound
  | some envelope =>
      rw [henvelope] at hbound
      cases hbound
      exact ⟨envelope, rfl, rfl, rfl⟩

theorem exists_formed (horiginal : original ∈ returned) :
    ∃ id cells, original.eventId = some id ∧ Formed (Statement.insertEvents bodies).params
      (Statement.insertMemberships memberships).params places id cells := by
  obtain ⟨i, envelope, hi, rfl⟩ := h.exists_index horiginal
  obtain ⟨payload, -, hbody⟩ := h.body hi
  have hbound : boundAt 5 (Statement.insertEvents bodies).params i =
      (sentAs draw i envelope payload).params := by
    rw [boundAt_insertEvents, hbody]
    rfl
  have hplaced : boundAt 3 (Statement.insertMemberships memberships).params i =
      (⟨stream, current + i + 1, draw.eventId i⟩ : MembershipRow).params := by
    rw [boundAt_insertMemberships, h.memberships, List.getElem?_mapIdx, hi]
    rfl
  exact ⟨_, _, rfl, .row hbound hplaced (h.place_mem hi) (.refl _)⟩

/-- A row of the event is read as the event. -/
theorem exists_readsBack (distinct : (bodies.map EventRow.eventId).Nodup)
    (horiginal : original ∈ returned) (hid : original.eventId = some id)
    (hformed : Formed (Statement.insertEvents bodies).params
      (Statement.insertMemberships memberships).params places id cells) :
    ∃ read : Envelope ε, envelopeOfRow (Tables.readColumns.zip cells) = .ok read ∧
      ReadsBack original read := by
  obtain ⟨i, envelope, hi, rfl⟩ := h.exists_index horiginal
  cases hid
  cases hformed with
  | @row k j name payload metadata text _ createdAt version found body membership place same =>
      -- The body, the membership and the event itself are at one index of the batch.
      obtain ⟨other, hother, hmarshal, hbody⟩ := h.body_of_boundAt body
      obtain ⟨another, hanother, hj, rfl⟩ := h.membership_of_boundAt membership
      obtain rfl := h.index_eq distinct hi hother (congrArg EventRow.eventId hbody)
      obtain rfl := h.index_eq distinct hi hanother hj
      obtain rfl : envelope = other := Option.some.inj (hi.symm.trans hother)
      cases hbody
      obtain rfl : found = position (current + i + 1) :=
        position_of_mem_placesBehind (h.places.subset place)
      obtain ⟨headers, order, hheaders, hperm, rfl⟩ := same
      obtain rfl := Headers.metadata_inj hheaders
      have hread := envelopeOfRow_formed (ε := ε) (current + i + 1) (position (current + i + 1))
        (draw.eventId i) envelope.eventName payload order
      have hsame := Dictionary.get?_of_perm hperm
      exact ⟨_, hread, rfl, rfl, rfl, rfl, fun name => congrFun hsame name,
        ⟨payload, hmarshal, rfl⟩, congrArg (·.getD "") (congrFun hsame aggregateIdHeader)⟩

end

end InStep

/-- Take any append that is answered, and a server that inserts what it is sent: it has kept the
identifiers of the bodies apart and returned one place for each membership, in any order.

What is returned are the events of the batch. For each of them a row can be put together from the
values that were bound for its body, the values that were bound for its membership, and the place
that was returned for that version. Whatever read a query was for, and whichever of these rows it
is answered with, in whatever order they are and the headers in them are serialised, the rows are
read as the events they are rows of: under the same identifier, version, position, name and
headers, with the same payload, and as events of the aggregate that their headers name. -/
theorem rows_read_back {bodies : List EventRow} {memberships : List MembershipRow}
    {places : List Place}
    (hanswer : ((append draw stream batch expected).follow replies).answer = .ok returned)
    (hinserts : Inserts ((append draw stream batch expected).follow replies).sent replies bodies
      memberships places) :
    let rowOf (original : Envelope ε) (cells : List Cell) : Prop :=
      ∃ id, original.eventId = some id ∧ Formed (Statement.insertEvents bodies).params
        (Statement.insertMemberships memberships).params places id cells
    (∃ current position, returned = batch.mapIdx (returnedAs draw current position)) ∧
      (∀ original ∈ returned, ∃ cells, rowOf original cells) ∧
      ∀ (spec : ReadSpec) (originals : List (Envelope ε)) (rows : List (List Cell)),
        (∀ original ∈ originals, original ∈ returned) → List.Forall₂ rowOf originals rows →
        ∃ read, ((query spec : Program (List (Envelope ε))).follow
            [.table ⟨Tables.readColumns, rows⟩]).answer = .ok read ∧
          List.Forall₂ ReadsBack originals read := by
  intro rowOf
  obtain ⟨current, position, hstep⟩ := exists_inStep hanswer hinserts
  refine ⟨⟨current, position, hstep.returned⟩, fun original horiginal => ?_,
    fun spec originals rows hreturned hrows => ?_⟩
  · obtain ⟨id, cells, hid, hformed⟩ := hstep.exists_formed horiginal
    exact ⟨cells, id, hid, hformed⟩
  · obtain ⟨read, hread, hback⟩ := exists_mapM_of_forall₂ hrows
      (f := fun cells => envelopeOfRow (Tables.readColumns.zip cells))
      fun original horiginal cells ⟨id, hid, hformed⟩ =>
        hstep.exists_readsBack hinserts.distinct (hreturned original horiginal) hid hformed
    have hlabelled : (rows.map fun cells => Tables.readColumns.zip cells).mapM envelopeOfRow =
        .ok read := by
      rw [List.mapM_map]
      exact hread
    refine ⟨read, ?_, hback⟩
    rw [← hlabelled]
    rfl

/-- Two notes whose places come back the last one first. A header of the first is all quotation
marks and control characters, and its headers are read in reverse. -/
theorem rows_read_back_reversed :
    let first : Envelope OrderEvent :=
      (Envelope.fresh "agg" (.raw "Noted" "1")).withHeader "\"\\" "\n\u0001\""
    let second : Envelope OrderEvent := .fresh "agg" (.raw "Noted" "2")
    let draw := countingSupply 0
    let position (version : Int) : Int := 2 * version - 3
    let replies : List Reply :=
      [.table .none, .table .none, .table ⟨[⟨"last_version", .int8⟩], [[.int 4]]⟩, .table .none,
        .table ⟨[⟨"stream_version", .int8⟩, ⟨"position", .int8⟩],
          [[.int 6, .int 9], [.int 5, .int 7]]⟩]
    let original := returnedAs draw 4 position 0 first
    let order : Headers := .ofList original.headers.entries.reverse
    ((append draw "s" [first, second] (some 4)).follow replies).answer =
        .ok [original, returnedAs draw 4 position 1 second] ∧
      ∃ read : Envelope OrderEvent,
        ((query (.whole "s")).follow [.table ⟨Tables.readColumns,
          [[.int 5, .int 7, .uuid (draw.eventId 0), .text "Noted", .text "1",
            .text order.metadata]]⟩]).answer = .ok [read] ∧
          ReadsBack original read ∧ read.header? "\"\\" = some "\n\u0001\"" ∧
          read.aggregateId = "" := by
  intro first second draw position replies original order
  have hcooperates : Cooperates replies 2 4 4 position 2 :=
    { carriedOut := by rintro (_ | _ | _ | _ | _ | place) <;> exact ⟨_, rfl⟩
      locked := ⟨_, rfl, rfl⟩
      inserted := ⟨_, _, rfl, rfl, .swap _ _ _⟩ }
  have hfollow : (append draw "s" [first, second] (some 4)).follow replies = _ :=
    follow_append_of_cooperates (by decide) (.inr rfl) (by simp) rfl hcooperates
  have hanswer := congrArg (·.answer) hfollow
  have hinserts : Inserts ((append draw "s" [first, second] (some 4)).follow replies).sent replies
      [sentAs draw 0 first "1", sentAs draw 1 second "2"]
      [⟨"s", 5, draw.eventId 0⟩, ⟨"s", 6, draw.eventId 1⟩] [⟨6, 9⟩, ⟨5, 7⟩] := by
    rw [hfollow]
    exact
      { bodies_sent := .tail _ (.tail _ (.tail _ (.head _)))
        memberships_sent := ⟨4, _, rfl, rfl, rfl⟩
        distinct := by decide
        versions := .swap _ _ _ }
  have horder : order.entries.Perm original.headers.entries := by
    have hentries : order.entries = original.headers.entries.reverse := by decide
    rw [hentries]
    exact List.reverse_perm _
  obtain ⟨-, -, hreads⟩ := rows_read_back hanswer hinserts
  obtain ⟨read, hread, hback⟩ := hreads (.whole "s") [original]
    [[.int 5, .int 7, .uuid (draw.eventId 0), .text "Noted", .text "1", .text order.metadata]]
    (fun _ hone => List.mem_singleton.mp hone ▸ List.mem_cons_self)
    (.cons ⟨_, rfl, .row (i := 0) (j := 0) rfl rfl (.tail _ (.head _))
      ⟨original.headers, order, rfl, horder, rfl⟩⟩ .nil)
  obtain _ | ⟨hsame, _ | _⟩ := hback
  refine ⟨hanswer, _, hread, hsame, ?_, ?_⟩
  · rw [hsame.headers]
    decide
  · rw [hsame.aggregateId]
    decide

end Postgres

end EventLog
