/-
# What a write does to the store

Each write of the store in memory is summed up by one equation here, and nothing later
opens its definition: an append adds the bodies of its batch and puts their identifiers at
the end of a stream (`Store.grown`), a link only does the latter, a deletion takes one
stream away (`Store.without`). `Memory.effect_ask` says that a call never changes the store
in any other way, with the guards under which it changes it at all.
-/

import EventLog.Proofs.Calls
import EventLog.Proofs.Except

namespace EventLog

variable {ε : Type} [EventType ε]

/-! ## Batches -/

/-- The first event of the batch that cannot be encoded fails with this error. -/
def FirstUnencodable (batch : List (Envelope ε)) (e : Error) : Prop :=
  ∃ before envelope after, batch = before ++ envelope :: after ∧
    (∀ earlier ∈ before, ∃ payload, earlier.event.marshal = .ok payload) ∧
    envelope.event.marshal = .error e

namespace Staged

theorem ofEnvelopes_cons (draw : Draw) (index : Nat) (envelope : Envelope ε)
    (rest : List (Envelope ε)) :
    ofEnvelopes draw index (envelope :: rest) =
      (ofEnvelope draw index envelope).bind fun entry =>
        (ofEnvelopes draw (index + 1) rest).map (entry :: ·) := by
  rw [ofEnvelopes]
  cases ofEnvelope draw index envelope with
  | error e => rfl
  | ok entry => cases ofEnvelopes draw (index + 1) rest <;> rfl

/-- A prepared batch is its first event, prepared, and then the others. -/
theorem ofEnvelopes_cons_eq_ok_iff {draw : Draw} {index : Nat} {envelope : Envelope ε}
    {rest : List (Envelope ε)} {staged : List (Staged ε)} :
    ofEnvelopes draw index (envelope :: rest) = .ok staged ↔
      ∃ entry entries, ofEnvelope draw index envelope = .ok entry ∧
        ofEnvelopes draw (index + 1) rest = .ok entries ∧ staged = entry :: entries := by
  rw [ofEnvelopes_cons]
  cases ofEnvelope draw index envelope with
  | error e => simp [Except.bind]
  | ok entry =>
      cases ofEnvelopes draw (index + 1) rest with
      | error e => simp [Except.bind, Except.map]
      | ok entries => simp [Except.bind, Except.map, eq_comm]

/-- Preparing an event fails exactly as encoding it does. -/
theorem ofEnvelope_eq_error_iff {draw : Draw} {index : Nat} {envelope : Envelope ε}
    {e : Error} :
    ofEnvelope draw index envelope = .error e ↔ envelope.event.marshal = .error e := by
  unfold ofEnvelope
  cases envelope.event.marshal <;> simp [Except.map]

/-- What preparing an event makes of it. -/
theorem ofEnvelope_eq_ok_iff {draw : Draw} {index : Nat} {envelope : Envelope ε}
    {entry : Staged ε} :
    ofEnvelope draw index envelope = .ok entry ↔
      envelope.event.marshal = .ok entry.payload ∧ entry.eventId = draw.eventId index ∧
        entry.envelope = { envelope with
          headers := envelope.headers.stamp draw.now (draw.correlationId index) } := by
  unfold ofEnvelope
  obtain ⟨eventId, payload, stamped⟩ := entry
  cases envelope.event.marshal with
  | error e => simp [Except.map]
  | ok text =>
      simp only [Except.map, Except.ok.injEq, Staged.mk.injEq]
      constructor
      · rintro ⟨rfl, rfl, rfl⟩
        exact ⟨rfl, rfl, rfl⟩
      · rintro ⟨rfl, rfl, rfl⟩
        exact ⟨rfl, rfl, rfl⟩

/-- A batch cannot be prepared exactly when one of its events cannot be encoded, and then
the first such event decides. -/
theorem ofEnvelopes_eq_error_iff {draw : Draw} {index : Nat} {batch : List (Envelope ε)}
    {e : Error} : ofEnvelopes draw index batch = .error e ↔ FirstUnencodable batch e := by
  induction batch generalizing index with
  | nil => simp [ofEnvelopes, FirstUnencodable]
  | cons first rest ih =>
      have hcons : FirstUnencodable (first :: rest) e ↔ first.event.marshal = .error e ∨
          (∃ payload, first.event.marshal = .ok payload) ∧ FirstUnencodable rest e :=
        Except.firstFailure_cons
      rw [hcons, ← ih, ofEnvelopes_cons, ← ofEnvelope_eq_error_iff]
      cases hfirst : ofEnvelope draw index first with
      | error cause =>
          have hmarshal := ofEnvelope_eq_error_iff.mp hfirst
          simp [Except.bind, hmarshal]
      | ok entry =>
          have hmarshal := (ofEnvelope_eq_ok_iff.mp hfirst).1
          cases ofEnvelopes draw (index + 1) rest <;> simp [Except.bind, Except.map, hmarshal]

/-- A batch whose events can all be encoded can be prepared. -/
theorem exists_ofEnvelopes {batch : List (Envelope ε)} (draw : Draw) (index : Nat)
    (encodable : ∀ envelope ∈ batch, ∃ payload, envelope.event.marshal = .ok payload) :
    ∃ staged, ofEnvelopes draw index batch = .ok staged := by
  cases hstaged : ofEnvelopes draw index batch with
  | ok staged => exact ⟨staged, rfl⟩
  | error e =>
      obtain ⟨before, envelope, after, rfl, -, hfails⟩ := ofEnvelopes_eq_error_iff.mp hstaged
      obtain ⟨payload, hpayload⟩ := encodable envelope (by simp)
      rw [hfails] at hpayload
      cases hpayload

/-- A prepared batch has one entry for each envelope, prepared with its own index. -/
theorem getElem?_of_ofEnvelopes {draw : Draw} {index : Nat} {batch : List (Envelope ε)}
    {staged : List (Staged ε)} (h : ofEnvelopes draw index batch = .ok staged) {i : Nat}
    {envelope : Envelope ε} (hi : batch[i]? = some envelope) :
    ∃ entry, staged[i]? = some entry ∧ ofEnvelope draw (index + i) envelope = .ok entry := by
  induction batch generalizing index staged i with
  | nil => cases hi
  | cons first rest ih =>
      obtain ⟨entry, entries, hfirst, hrest, rfl⟩ := ofEnvelopes_cons_eq_ok_iff.mp h
      cases i with
      | zero =>
          cases hi
          exact ⟨entry, rfl, hfirst⟩
      | succ i =>
          have hshift : index + (i + 1) = index + 1 + i := by omega
          rw [hshift]
          exact ih hrest hi

/-- Every event of a prepared batch can be encoded. -/
theorem marshal_of_ofEnvelopes {draw : Draw} {index : Nat} {batch : List (Envelope ε)}
    {staged : List (Staged ε)} (h : ofEnvelopes draw index batch = .ok staged) :
    ∀ envelope ∈ batch, ∃ payload, envelope.event.marshal = .ok payload := by
  intro envelope hmem
  obtain ⟨i, hi⟩ := List.mem_iff_getElem?.mp hmem
  obtain ⟨entry, -, hprepared⟩ := getElem?_of_ofEnvelopes h hi
  exact ⟨entry.payload, (ofEnvelope_eq_ok_iff.mp hprepared).1⟩

/-- Preparing a batch changes neither its length nor which identifiers were drawn. -/
theorem map_eventId_of_ofEnvelopes {draw : Draw} {index : Nat} {batch : List (Envelope ε)}
    {staged : List (Staged ε)} (h : ofEnvelopes draw index batch = .ok staged) :
    staged.map eventId = (List.range' index batch.length).map draw.eventId := by
  induction batch generalizing index staged with
  | nil =>
      cases h
      rfl
  | cons first rest ih =>
      obtain ⟨entry, entries, hfirst, hrest, rfl⟩ := ofEnvelopes_cons_eq_ok_iff.mp h
      have hid := (ofEnvelope_eq_ok_iff.mp hfirst).2.1
      rw [List.map_cons, ih hrest, hid, List.length_cons, List.range'_succ, List.map_cons]

theorem length_of_ofEnvelopes {draw : Draw} {index : Nat} {batch : List (Envelope ε)}
    {staged : List (Staged ε)} (h : ofEnvelopes draw index batch = .ok staged) :
    staged.length = batch.length := by
  simpa using congrArg List.length (map_eventId_of_ofEnvelopes h)

end Staged

/-! ## The three writes -/

/-- The writer expects no version in particular, or the one that is there. -/
def versionMatches (expected : Option Int) (actual : Int) : Prop :=
  expected = none ∨ expected = some actual

instance (expected : Option Int) (actual : Int) : Decidable (versionMatches expected actual) :=
  inferInstanceAs (Decidable (_ ∨ _))

namespace Store

/-- The store after a batch has been appended. -/
def grown (s : Store) (now : Timestamp) (stream : String) (staged : List (Staged ε)) : Store :=
  (s.keep now staged).extend stream (s.lastVersion stream) (staged.map Staged.eventId)

/-- The envelopes of a batch as an append returns them. -/
def placed (s : Store) (stream : String) (staged : List (Staged ε)) : List (Envelope ε) :=
  List.zipWith (fun entry place =>
    entry.envelope.persistedAs entry.eventId place.version place.position) staged
    (membersFrom s.lastPosition (s.lastVersion stream) (staged.map Staged.eventId))

/-- The store without one of its streams. -/
def without (s : Store) (stream : String) : Store := { s with streams := s.streams.erase stream }

theorem checkExpected_eq (s : Store) (stream : String) (expected : Option Int) :
    s.checkExpected stream expected =
      if versionMatches expected (s.lastVersion stream) then .ok (s.lastVersion stream)
      else .error (.conflict stream expected (s.lastVersion stream)) := by
  cases expected with
  | none => simp [checkExpected, versionMatches]
  | some version => by_cases h : version = s.lastVersion stream <;>
      simp [checkExpected, versionMatches, h]

theorem append_eq (s : Store) (draw : Draw) (stream : String) (batch : List (Envelope ε))
    (expected : Option Int) :
    s.append draw stream batch expected =
      if stream = "" then .error .emptyStreamId
      else match Staged.ofEnvelopes draw 0 batch with
        | .error e => .error e
        | .ok staged =>
          if versionMatches expected (s.lastVersion stream) then
            .ok (s.placed stream staged, s.grown draw.now stream staged)
          else .error (.conflict stream expected (s.lastVersion stream)) := by
  rw [append, requireStreamId]
  by_cases hstream : stream = ""
  · rw [if_pos hstream, if_pos hstream]
    rfl
  · rw [if_neg hstream, if_neg hstream]
    cases Staged.ofEnvelopes draw 0 batch with
    | error e => rfl
    | ok staged =>
        rw [checkExpected_eq]
        by_cases hversion : versionMatches expected (s.lastVersion stream)
        · rw [if_pos hversion]
          exact (if_pos hversion).symm
        · rw [if_neg hversion]
          exact (if_neg hversion).symm

theorem link_eq (s : Store) (stream : String) (ids : List Uuid) (expected : Option Int) :
    s.link stream ids expected =
      if stream = "" then .error .emptyStreamId
      else match ids.find? fun id => !s.hasEvent id with
        | some missing => .error (.unknownEvent missing)
        | none =>
          if versionMatches expected (s.lastVersion stream) then
            .ok (s.lastVersion stream + ids.length,
              s.extend stream (s.lastVersion stream) ids)
          else .error (.conflict stream expected (s.lastVersion stream)) := by
  rw [link, requireStreamId]
  by_cases hstream : stream = ""
  · rw [if_pos hstream, if_pos hstream]
    rfl
  · rw [if_neg hstream, if_neg hstream]
    cases ids.find? fun id => !s.hasEvent id with
    | some missing => rfl
    | none =>
        rw [checkExpected_eq]
        by_cases hversion : versionMatches expected (s.lastVersion stream)
        · rw [if_pos hversion]
          exact (if_pos hversion).symm
        · rw [if_neg hversion]
          exact (if_neg hversion).symm

/-- An append that succeeds passed every check, and this is what it does. -/
theorem append_eq_ok_iff {s after : Store} {draw : Draw} {stream : String}
    {batch returned : List (Envelope ε)} {expected : Option Int} :
    s.append draw stream batch expected = .ok (returned, after) ↔
      stream ≠ "" ∧ versionMatches expected (s.lastVersion stream) ∧
        ∃ staged, Staged.ofEnvelopes draw 0 batch = .ok staged ∧
          returned = s.placed stream staged ∧ after = s.grown draw.now stream staged := by
  rw [append_eq]
  by_cases hstream : stream = ""
  · simp [hstream]
  · cases hstaged : Staged.ofEnvelopes draw 0 batch with
    | error e => simp [hstream]
    | ok staged =>
        by_cases hversion : versionMatches expected (s.lastVersion stream)
        · simp [hstream, hversion, eq_comm]
        · simp [hstream, hversion]

/-- A link that succeeds passed every check, and this is what it does. -/
theorem link_eq_ok_iff {s after : Store} {stream : String} {ids : List Uuid}
    {expected : Option Int} {version : Int} :
    s.link stream ids expected = .ok (version, after) ↔
      stream ≠ "" ∧ versionMatches expected (s.lastVersion stream) ∧
        (∀ id ∈ ids, s.hasEvent id = true) ∧ version = s.lastVersion stream + ids.length ∧
          after = s.extend stream (s.lastVersion stream) ids := by
  rw [link_eq]
  by_cases hstream : stream = ""
  · simp [hstream]
  · cases hmissing : ids.find? fun id => !s.hasEvent id with
    | some missing =>
        have habsent : ¬ ∀ id ∈ ids, s.hasEvent id = true := by
          intro hknown
          rw [List.find?_eq_none.mpr (by simpa using hknown)] at hmissing
          cases hmissing
        simp [hstream, habsent]
    | none =>
        have hknown : ∀ id ∈ ids, s.hasEvent id = true := by simpa using hmissing
        by_cases hversion : versionMatches expected (s.lastVersion stream)
        · simp only [if_neg hstream, if_pos hversion]
          constructor
          · intro h
            cases h
            exact ⟨hstream, hversion, hknown, rfl, rfl⟩
          · rintro ⟨-, -, -, rfl, rfl⟩
            rfl
        · simp [hstream, hversion]

theorem delete_eq (s : Store) (stream : String) :
    s.delete stream = if stream = "" then .error .emptyStreamId else .ok (s.without stream) := by
  rw [delete, requireStreamId]
  by_cases hstream : stream = ""
  · rw [if_pos hstream, if_pos hstream]
    rfl
  · rw [if_neg hstream, if_neg hstream]
    rfl

/-! ## What is seen of the store afterwards -/

@[simp] theorem members_keep (s : Store) (now : Timestamp) (staged : List (Staged ε))
    (stream : String) : (s.keep now staged).members stream = s.members stream := rfl

@[simp] theorem lastPosition_keep (s : Store) (now : Timestamp) (staged : List (Staged ε)) :
    (s.keep now staged).lastPosition = s.lastPosition := rfl

@[simp] theorem lastPosition_extend (s : Store) (stream : String) (current : Int)
    (ids : List Uuid) :
    (s.extend stream current ids).lastPosition = s.lastPosition + ids.length := rfl

theorem members_without (s : Store) (stream other : String) :
    (s.without stream).members other = if stream = other then [] else s.members other := by
  by_cases h : stream = other <;> simp [without, members, Dictionary.get?_erase, h]

theorem members_grown (s : Store) (now : Timestamp) (stream other : String)
    (staged : List (Staged ε)) :
    (s.grown now stream staged).members other =
      if stream = other then s.members stream ++
        membersFrom s.lastPosition (s.lastVersion stream) (staged.map Staged.eventId)
      else s.members other :=
  members_extend _ _ _ _ _

theorem mem_members_extend {s : Store} {stream other : String} {current : Int} {ids : List Uuid}
    {a : Membership} :
    a ∈ (s.extend stream current ids).members other ↔
      a ∈ s.members other ∨ stream = other ∧ a ∈ membersFrom s.lastPosition current ids := by
  rw [members_extend]
  by_cases heq : stream = other
  · rw [if_pos heq, heq, List.mem_append]
    simp
  · simp [heq]

theorem mem_members_without {s : Store} {stream other : String} {a : Membership} :
    a ∈ (s.without stream).members other ↔ stream ≠ other ∧ a ∈ s.members other := by
  rw [members_without]
  by_cases heq : stream = other
  · simp [heq]
  · simp [heq]

/-- The body under an identifier after others have been kept. -/
theorem get?_keep_of_not_mem {s : Store} {now : Timestamp} {staged : List (Staged ε)} {id : Uuid}
    (h : id ∉ staged.map Staged.eventId) :
    (s.keep now staged).events.get? id = s.events.get? id := by
  unfold keep
  generalize s.events = events
  induction staged generalizing events with
  | nil => rfl
  | cons entry rest ih =>
      simp only [List.map_cons, List.mem_cons, not_or] at h
      rw [List.foldl_cons, ih h.2, Dictionary.get?_insert, if_neg (Ne.symm h.1)]

/-- A kept body is found under its identifier if that was drawn once. -/
theorem get?_keep_of_mem {s : Store} {now : Timestamp} {staged : List (Staged ε)}
    (distinct : (staged.map Staged.eventId).Nodup) {entry : Staged ε} (h : entry ∈ staged) :
    (s.keep now staged).events.get? entry.eventId = some (entry.body now) := by
  unfold keep
  generalize s.events = events
  induction staged generalizing events with
  | nil => cases h
  | cons first rest ih =>
      rw [List.map_cons, List.nodup_cons] at distinct
      rw [List.foldl_cons]
      rcases List.mem_cons.mp h with rfl | hrest
      · have hkept : (keep { s with events := events.insert entry.eventId (entry.body now) } now
            rest).events.get? entry.eventId = _ := get?_keep_of_not_mem distinct.1
        exact hkept.trans (Dictionary.get?_insert_self _ _ _)
      · exact ih distinct.2 hrest _

/-- After a batch has been kept the store knows its events and those it knew before. -/
theorem hasEvent_keep {s : Store} {now : Timestamp} {staged : List (Staged ε)} {id : Uuid} :
    (s.keep now staged).hasEvent id = true ↔
      id ∈ staged.map Staged.eventId ∨ s.hasEvent id = true := by
  unfold keep hasEvent
  generalize s.events = events
  induction staged generalizing events with
  | nil => simp
  | cons entry rest ih =>
      rw [List.foldl_cons, ih, List.map_cons, List.mem_cons, Dictionary.contains,
        Dictionary.get?_insert]
      by_cases h : entry.eventId = id
      · simp [h]
      · simp [h, Ne.symm h, Dictionary.contains]

/-- Memberships number on from the last version and the last position. -/
theorem getElem?_membersFrom (position current : Int) (ids : List Uuid) (i : Nat) :
    (membersFrom position current ids)[i]? =
      ids[i]?.map fun id => ⟨position + i + 1, current + i + 1, id⟩ := by
  induction ids generalizing position current i with
  | nil => rfl
  | cons id rest ih =>
      cases i with
      | zero => simp [membersFrom]
      | succ i =>
          rw [membersFrom, List.getElem?_cons_succ, ih, List.getElem?_cons_succ]
          congr 1
          funext id
          congr 1 <;> push_cast <;> omega

omit [EventType ε] in
/-- The envelopes that an append returns number on as well. -/
theorem getElem?_placed (s : Store) (stream : String) (staged : List (Staged ε)) (i : Nat) :
    (s.placed stream staged)[i]? = staged[i]?.map fun entry =>
      entry.envelope.persistedAs entry.eventId (s.lastVersion stream + i + 1)
        (s.lastPosition + i + 1) := by
  rw [placed, List.getElem?_zipWith, getElem?_membersFrom, List.getElem?_map]
  cases staged[i]? <;> rfl

end Store

/-! ## What a call does to the store -/

/-- Everything a call can do to a store, with what has to hold for it to happen. The draw is
the one an append takes. -/
inductive LogCall.Effect (draw : Draw) (s : Store) : LogCall ε → Store → Prop
  | unchanged (call : LogCall ε) : Effect draw s call s
  | appended {stream : String} {batch : List (Envelope ε)} {expected : Option Int}
      {staged : List (Staged ε)} (named : stream ≠ "")
      (prepared : Staged.ofEnvelopes draw 0 batch = .ok staged)
      (expectation : versionMatches expected (s.lastVersion stream)) :
      Effect draw s (.append stream batch expected) (s.grown draw.now stream staged)
  | linked {stream : String} {ids : List Uuid} {expected : Option Int} (named : stream ≠ "")
      (known : ∀ id ∈ ids, s.hasEvent id = true)
      (expectation : versionMatches expected (s.lastVersion stream)) :
      Effect draw s (.link stream ids expected) (s.extend stream (s.lastVersion stream) ids)
  | deleted {stream : String} (named : stream ≠ "") :
      Effect draw s (.delete stream) (s.without stream)

namespace Memory

variable (supply : Nat → Draw) (memory : Memory)

theorem effect_append (stream : String) (batch : List (Envelope ε)) (expected : Option Int) :
    LogCall.Effect (supply memory.drawn) memory.store (.append stream batch expected)
      (memory.append supply stream batch expected).2.store := by
  rw [append]
  cases h : memory.store.append (supply memory.drawn) stream batch expected with
  | error e => exact .unchanged _
  | ok result =>
      obtain ⟨hstream, hversion, staged, hstaged, -, hafter⟩ := Store.append_eq_ok_iff.mp h
      dsimp only
      rw [hafter]
      exact .appended hstream hstaged hversion

theorem effect_link (stream : String) (ids : List Uuid) (expected : Option Int) :
    LogCall.Effect (ε := ε) (supply memory.drawn) memory.store (.link stream ids expected)
      (((access (ε := ε) supply).link stream ids expected) memory).2.store := by
  show LogCall.Effect _ _ _ (write (fun store => store.link stream ids expected) memory).2.store
  rw [write]
  cases h : memory.store.link stream ids expected with
  | error e => exact .unchanged _
  | ok result =>
      obtain ⟨hstream, hversion, hknown, -, hafter⟩ := Store.link_eq_ok_iff.mp h
      dsimp only
      rw [hafter]
      exact .linked hstream hknown hversion

/-- A deletion, the refused one included. -/
theorem delete_eq (stream : String) :
    (access (ε := ε) supply).delete stream memory =
      if stream = "" then (.error .emptyStreamId, memory)
      else (.ok (), { memory with store := memory.store.without stream }) := by
  show write (fun store => (store.delete stream).map fun store => ((), store)) memory = _
  rw [write, Store.delete_eq]
  by_cases hstream : stream = ""
  · rw [if_pos hstream, if_pos hstream]
    rfl
  · rw [if_neg hstream, if_neg hstream]
    rfl

theorem effect_delete (stream : String) :
    LogCall.Effect (ε := ε) (supply memory.drawn) memory.store (.delete stream)
      (((access (ε := ε) supply).delete stream) memory).2.store := by
  rw [delete_eq]
  by_cases hstream : stream = ""
  · rw [if_pos hstream]
    exact .unchanged _
  · rw [if_neg hstream]
    exact .deleted hstream

/-- A call does nothing to the store but what `LogCall.Effect` lists. -/
theorem effect_ask (call : LogCall ε) :
    call.Effect (supply memory.drawn) memory.store (call.ask (access supply) memory).2.store := by
  cases call with
  | append stream batch expected => exact effect_append supply memory stream batch expected
  | link stream ids expected => exact effect_link supply memory stream ids expected
  | delete stream => exact effect_delete supply memory stream
  | hasEvent id => exact .unchanged _
  | streamOf id => exact .unchanged _
  | versionIn stream id => exact .unchanged _
  | inStream stream id => exact .unchanged _
  | lastVersion stream => exact .unchanged _

end Memory

end EventLog
