/-
# Writes happen completely or not at all

An append or a link has three things to check, and the first that is wrong decides: the
stream has to have a name, the events have to be encodable or known, and the version has to
be the expected one. `AppendRefusal` and `LinkRefusal` state this order without reference to
how the store goes about it. A refused write leaves the store exactly as it was; one that is
not refused puts one envelope for each entry of the batch at the end of the stream, and what
is returned is what can be read there (`Memory.writes_all_or_nothing`).
-/

import EventLog.Order.Event
import EventLog.Proofs.Store.Reading

namespace EventLog

variable {ε : Type} [EventType ε]

/-! ## Refusals -/

/-- The error with which an append is refused. -/
inductive AppendRefusal (s : Store) (stream : String) (batch : List (Envelope ε))
    (expected : Option Int) : Error → Prop
  | unnamed (h : stream = "") : AppendRefusal s stream batch expected .emptyStreamId
  | unencodable {e : Error} (named : stream ≠ "") (h : FirstUnencodable batch e) :
      AppendRefusal s stream batch expected e
  | moved {version : Int} (named : stream ≠ "")
      (encodable : ∀ envelope ∈ batch, ∃ payload, envelope.event.marshal = .ok payload)
      (h : expected = some version) (hne : version ≠ s.lastVersion stream) :
      AppendRefusal s stream batch expected
        (.conflict stream (some version) (s.lastVersion stream))

/-- The error with which a link is refused. -/
inductive LinkRefusal (s : Store) (stream : String) (ids : List Uuid) (expected : Option Int) :
    Error → Prop
  | unnamed (h : stream = "") : LinkRefusal s stream ids expected .emptyStreamId
  | unknown {before after : List Uuid} {missing : Uuid} (named : stream ≠ "")
      (h : ids = before ++ missing :: after) (known : ∀ id ∈ before, s.hasEvent id = true)
      (absent : s.hasEvent missing = false) :
      LinkRefusal s stream ids expected (.unknownEvent missing)
  | moved {version : Int} (named : stream ≠ "") (known : ∀ id ∈ ids, s.hasEvent id = true)
      (h : expected = some version) (hne : version ≠ s.lastVersion stream) :
      LinkRefusal s stream ids expected
        (.conflict stream (some version) (s.lastVersion stream))

theorem not_versionMatches_iff {expected : Option Int} {actual : Int} :
    ¬ versionMatches expected actual ↔ ∃ version, expected = some version ∧ version ≠ actual := by
  cases expected <;> simp [versionMatches]

namespace Store

/-- An append fails exactly as `AppendRefusal` says. -/
theorem append_eq_error_iff {s : Store} {draw : Draw} {stream : String}
    {batch : List (Envelope ε)} {expected : Option Int} {e : Error} :
    s.append draw stream batch expected = .error e ↔
      AppendRefusal s stream batch expected e := by
  constructor
  · intro h
    rw [append_eq] at h
    by_cases hstream : stream = ""
    · rw [if_pos hstream] at h
      cases h
      exact .unnamed hstream
    · rw [if_neg hstream] at h
      cases hstaged : Staged.ofEnvelopes draw 0 batch with
      | error cause =>
          rw [hstaged] at h
          cases h
          exact .unencodable hstream (Staged.ofEnvelopes_eq_error_iff.mp hstaged)
      | ok staged =>
          rw [hstaged] at h
          dsimp only at h
          by_cases hversion : versionMatches expected (s.lastVersion stream)
          · rw [if_pos hversion] at h
            cases h
          · rw [if_neg hversion] at h
            cases h
            obtain ⟨version, rfl, hne⟩ := not_versionMatches_iff.mp hversion
            exact .moved hstream (Staged.marshal_of_ofEnvelopes hstaged) rfl hne
  · intro h
    rw [append_eq]
    cases h with
    | unnamed h => rw [if_pos h]
    | unencodable named h =>
        rw [if_neg named, Staged.ofEnvelopes_eq_error_iff.mpr h]
    | moved named encodable h hne =>
        obtain ⟨staged, hstaged⟩ := Staged.exists_ofEnvelopes draw 0 encodable
        rw [if_neg named, hstaged, h]
        exact if_neg (not_versionMatches_iff.mpr ⟨_, rfl, hne⟩)

/-- A link fails exactly as `LinkRefusal` says. -/
theorem link_eq_error_iff {s : Store} {stream : String} {ids : List Uuid}
    {expected : Option Int} {e : Error} :
    s.link stream ids expected = .error e ↔ LinkRefusal s stream ids expected e := by
  constructor
  · intro h
    rw [link_eq] at h
    by_cases hstream : stream = ""
    · rw [if_pos hstream] at h
      cases h
      exact .unnamed hstream
    · rw [if_neg hstream] at h
      cases hmissing : ids.find? fun id => !s.hasEvent id with
      | some missing =>
          rw [hmissing] at h
          cases h
          obtain ⟨habsent, before, after, hids, hknown⟩ :=
            List.find?_eq_some_iff_append.mp hmissing
          exact .unknown hstream hids (by simpa using hknown) (by simpa using habsent)
      | none =>
          rw [hmissing] at h
          dsimp only at h
          by_cases hversion : versionMatches expected (s.lastVersion stream)
          · rw [if_pos hversion] at h
            cases h
          · rw [if_neg hversion] at h
            cases h
            obtain ⟨version, rfl, hne⟩ := not_versionMatches_iff.mp hversion
            exact .moved hstream (by simpa using hmissing) rfl hne
  · intro h
    rw [link_eq]
    cases h with
    | unnamed h => rw [if_pos h]
    | @unknown before after missing named h known absent =>
        have hfind : (ids.find? fun id => !s.hasEvent id) = some missing :=
          List.find?_eq_some_iff_append.mpr
            ⟨by simpa using absent, before, after, h, by simpa using known⟩
        rw [if_neg named, hfind]
    | moved named known h hne =>
        have hfind : (ids.find? fun id => !s.hasEvent id) = none := by simpa using known
        rw [if_neg named, hfind, h]
        exact if_neg (not_versionMatches_iff.mpr ⟨_, rfl, hne⟩)

end Store

/-! ## What is there afterwards -/

/-- An event of a batch as it was given, as it was returned and as it reads back. -/
structure StoredAs (draw : Draw) (index : Nat) (version : Int)
    (given returned readBack : Envelope ε) : Prop where
  eventId : returned.eventId = some (draw.eventId index) ∧
    readBack.eventId = returned.eventId
  version : returned.version = some version ∧ readBack.version = returned.version
  position : returned.position.isSome ∧ readBack.position = returned.position
  name : returned.eventName = given.eventName ∧ readBack.eventName = returned.eventName
  payload : ∃ payload, given.event.marshal = .ok payload ∧
    returned.event.marshal = .ok payload ∧ readBack.event.marshal = .ok payload
  headers : readBack.headers = returned.headers
  /-- Every header is as it was given, but the time of storing is set and a correlation
  identifier is supplied if there was none. -/
  stamped : ∀ name, returned.header? name =
    if name = timestampHeader then some draw.now.textWithOffset
    else if name = correlationIdHeader then
      some ((given.header? name).getD (draw.correlationId index).text)
    else given.header? name

/-- What an append does to the read of its stream when it returns these envelopes. -/
structure Appended (draw : Draw) (s after : Store) (stream : String)
    (given returned : List (Envelope ε)) : Prop where
  length_returned : returned.length = given.length
  exists_added : ∃ added, after.read stream = s.read stream ++ added ∧
    added.length = given.length ∧
    ∀ (i : Nat) (envelope : Envelope ε), given[i]? = some envelope → ∃ answer readBack,
      returned[i]? = some answer ∧ added[i]? = some readBack ∧
        StoredAs draw i (s.lastVersion stream + i + 1) envelope answer readBack

/-- What a link does to the read of its stream when it returns this version. -/
structure Linked (ε : Type) (s after : Store) (stream : String) (ids : List Uuid)
    (version : Int) : Prop where
  version_eq : version = s.lastVersion stream + ids.length
  exists_added : ∃ added : List (Envelope ε), after.read stream = s.read stream ++ added ∧
    added.length = ids.length ∧
    ∀ (i : Nat) (id : Uuid), ids[i]? = some id → ∃ body, s.events.get? id = some body ∧
      added[i]? = some (Envelope.stored id (s.lastVersion stream + i + 1) (s.lastPosition + i + 1)
        body.headers (.raw body.name body.payload))

theorem Headers.get?_stamp (headers : Headers) (now : Timestamp) (correlationId : Uuid)
    (name : String) : (headers.stamp now correlationId).get? name =
      if name = timestampHeader then some now.textWithOffset
      else if name = correlationIdHeader then some ((headers.get? name).getD correlationId.text)
      else headers.get? name := by
  rw [stamp, Dictionary.get?_insert, Dictionary.get?_insertIfNew]
  by_cases htime : timestampHeader = name
  · rw [if_pos htime, if_pos htime.symm]
  · rw [if_neg htime, if_neg (Ne.symm htime)]
    by_cases hcorrelation : correlationIdHeader = name
    · rw [if_pos hcorrelation, if_pos hcorrelation.symm, hcorrelation]
    · rw [if_neg hcorrelation, if_neg (Ne.symm hcorrelation)]

/-- A prepared event stands where it was put. -/
theorem Staged.storedAs {draw : Draw} {index : Nat} {given : Envelope ε} {entry : Staged ε}
    (h : ofEnvelope draw index given = .ok entry) (place : Membership) :
    StoredAs draw index place.version given
      (entry.envelope.persistedAs entry.eventId place.version place.position)
      (entry.readAt place) := by
  obtain ⟨hmarshal, hid, henvelope⟩ := ofEnvelope_eq_ok_iff.mp h
  have hevent : entry.envelope.event = given.event := by rw [henvelope]
  exact {
    eventId := ⟨by rw [← hid]; rfl, rfl⟩
    version := ⟨rfl, rfl⟩
    position := ⟨rfl, rfl⟩
    name := ⟨congrArg Event.name hevent, rfl⟩
    payload := ⟨entry.payload, hmarshal, by rw [← hmarshal, ← hevent]; rfl, rfl⟩
    headers := rfl
    stamped := by
      intro name
      show entry.envelope.headers.get? name = _
      rw [henvelope]
      exact Headers.get?_stamp _ _ _ _ }

namespace Store

/-- What a successful append returns is what can be read at the end of its stream. -/
theorem appended_of_append_eq_ok {s after : Store} (hsound : s.Sound) {draw : Draw}
    {stream : String} {batch returned : List (Envelope ε)} {expected : Option Int}
    (h : s.append draw stream batch expected = .ok (returned, after))
    (fresh : draw.FreshFor s batch.length) :
    Appended draw s after stream batch returned := by
  obtain ⟨-, -, staged, hstaged, rfl, rfl⟩ := append_eq_ok_iff.mp h
  have hlength := Staged.length_of_ofEnvelopes hstaged
  have hplaces : (membersFrom s.lastPosition (s.lastVersion stream)
      (staged.map Staged.eventId)).length = staged.length := by
    rw [length_membersFrom, List.length_map]
  refine ⟨?_, _, read_grown (accepts_of_freshFor fresh hstaged) hsound draw.now stream, ?_, ?_⟩
  · rw [placed, List.length_zipWith, hplaces, Nat.min_self, hlength]
  · rw [List.length_zipWith, hplaces, Nat.min_self, hlength]
  · intro i envelope hi
    obtain ⟨entry, hentry, hprepared⟩ := Staged.getElem?_of_ofEnvelopes hstaged hi
    rw [Nat.zero_add] at hprepared
    have hplace := getElem?_membersFrom s.lastPosition (s.lastVersion stream)
      (staged.map Staged.eventId) i
    rw [List.getElem?_map, hentry] at hplace
    refine ⟨_, _, ?_, ?_, Staged.storedAs hprepared
      ⟨s.lastPosition + i + 1, s.lastVersion stream + i + 1, entry.eventId⟩⟩
    · rw [getElem?_placed, hentry]
      rfl
    · rw [List.getElem?_zipWith, hentry, hplace]
      rfl

omit [EventType ε] in
/-- A successful link puts one envelope for each identifier at the end of its stream, and
every one of them is the event it names. -/
theorem linked_of_link_eq_ok {s after : Store} {stream : String} {ids : List Uuid}
    {expected : Option Int} {version : Int}
    (h : s.link stream ids expected = .ok (version, after)) :
    Linked ε s after stream ids version := by
  obtain ⟨-, -, hknown, rfl, rfl⟩ := link_eq_ok_iff.mp h
  have hread : ∀ member ∈ membersFrom s.lastPosition (s.lastVersion stream) ids,
      (s.envelope? member : Option (Envelope ε)).isSome :=
    fun member hmember => isSome_envelope? (hknown _ (mem_membersFrom hmember).2.2)
  obtain ⟨hlength, hplaces⟩ := getElem?_filterMap_of_isSome hread
  refine ⟨rfl, _, ?_, hlength.trans (length_membersFrom _ _ _), ?_⟩
  · rw [read_extend, if_pos rfl]
  · intro i id hi
    obtain ⟨body, hbody⟩ := exists_body_of_hasEvent (hknown id (List.mem_of_getElem? hi))
    refine ⟨body, hbody, ?_⟩
    rw [hplaces, getElem?_membersFrom, hi]
    exact envelope?_eq_some hbody

end Store

namespace Memory

variable {supply : Nat → Draw} {memory : Memory} {stream : String} {expected : Option Int}

theorem append_all_or_nothing (hsound : memory.store.Sound) (batch : List (Envelope ε)) :
    let result := memory.append supply stream batch expected
    (∀ e, result.1 = .error e ↔ AppendRefusal memory.store stream batch expected e) ∧
    (∀ e, result.1 = .error e → result.2.store = memory.store) ∧
    (∀ returned, result.1 = .ok returned →
      (supply memory.drawn).FreshFor memory.store batch.length →
        Appended (supply memory.drawn) memory.store result.2.store stream batch returned) := by
  intro result
  have hresult : result = memory.append supply stream batch expected := rfl
  rw [append] at hresult
  have hsame : ∀ e, result.1 = .error e ↔
      memory.store.append (supply memory.drawn) stream batch expected = .error e := by
    intro e
    rw [hresult]
    cases memory.store.append (supply memory.drawn) stream batch expected <;> simp
  refine ⟨fun e => (hsame e).trans Store.append_eq_error_iff, fun e he => ?_,
    fun returned hok fresh => ?_⟩
  · rw [hresult, (hsame e).mp he]
  · cases h : memory.store.append (supply memory.drawn) stream batch expected with
    | error cause =>
        rw [hresult, h] at hok
        cases hok
    | ok answer =>
        rw [hresult, h] at hok
        cases hok
        rw [hresult, h]
        exact Store.appended_of_append_eq_ok hsound h fresh

omit [EventType ε] in
theorem link_all_or_nothing (ids : List Uuid) :
    let result := write (fun store => store.link stream ids expected) memory
    (∀ e, result.1 = .error e ↔ LinkRefusal memory.store stream ids expected e) ∧
    (∀ e, result.1 = .error e → result.2.store = memory.store) ∧
    (∀ version, result.1 = .ok version →
      Linked ε memory.store result.2.store stream ids version) := by
  intro result
  have hresult : result = write (fun store => store.link stream ids expected) memory := rfl
  rw [write] at hresult
  have hsame : ∀ e, result.1 = .error e ↔
      memory.store.link stream ids expected = .error e := by
    intro e
    rw [hresult]
    cases memory.store.link stream ids expected <;> simp
  refine ⟨fun e => (hsame e).trans Store.link_eq_error_iff, fun e he => ?_,
    fun version hok => ?_⟩
  · rw [hresult, (hsame e).mp he]
  · cases h : memory.store.link stream ids expected with
    | error cause =>
        rw [hresult, h] at hok
        cases hok
    | ok answer =>
        rw [hresult, h] at hok
        cases hok
        rw [hresult, h]
        exact Store.linked_of_link_eq_ok h

/-- After any calls, an append or a link to the log in memory fails exactly as
`AppendRefusal` and `LinkRefusal` say, and then the store is the one it was before. If it
does not fail, the unfiltered forward read of its stream is the earlier one followed by one
envelope for each entry of the batch, in order and numbered on from the last version; for
an append these are the returned envelopes, provided its identifiers are drawn afresh. -/
theorem writes_all_or_nothing (supply : Nat → Draw) (calls : List (LogCall ε))
    (stream : String) (expected : Option Int) :
    let memory := (converse (access supply) calls empty).2
    let s := memory.store
    (∀ batch : List (Envelope ε),
      let result := (access supply).append stream batch expected memory
      (∀ e, result.1 = .error e ↔ AppendRefusal s stream batch expected e) ∧
      (∀ e, result.1 = .error e → result.2.store = s) ∧
      (∀ returned, result.1 = .ok returned →
        (supply memory.drawn).FreshFor s batch.length →
          Appended (supply memory.drawn) s result.2.store stream batch returned)) ∧
    (∀ ids : List Uuid,
      let result := (access (ε := ε) supply).link stream ids expected memory
      (∀ e, result.1 = .error e ↔ LinkRefusal s stream ids expected e) ∧
      (∀ e, result.1 = .error e → result.2.store = s) ∧
      (∀ version, result.1 = .ok version → Linked ε s result.2.store stream ids version)) := by
  intro memory s
  have hsound : s.Sound := sound_converse supply sound_empty calls
  exact ⟨fun batch => append_all_or_nothing hsound batch, fun ids => link_all_or_nothing ids⟩

/-- Two notes behind one that is there already, with the version expected that it has. -/
theorem writes_all_or_nothing_two_notes :
    let note (text : String) : Envelope OrderEvent := .fresh "agg" (.raw "Noted" text)
    let memory := (converse (access countingSupply) [.append "s" [note "1"] none] empty).2
    let batch := [note "2", note "3"]
    let result := (access countingSupply).append "s" batch (some 1) memory
    (countingSupply memory.drawn).FreshFor memory.store batch.length ∧
      ∃ returned, result.1 = .ok returned ∧
        Appended (countingSupply memory.drawn) memory.store result.2.store "s" batch returned := by
  intro note memory batch result
  have hfresh : (countingSupply memory.drawn).FreshFor memory.store batch.length :=
    ⟨by decide, by decide⟩
  have hall := (writes_all_or_nothing countingSupply [.append "s" [note "1"] none] "s" (some 1)).1
    batch
  exact ⟨hfresh, _, rfl, hall.2.2 _ rfl hfresh⟩

end Memory

end EventLog
