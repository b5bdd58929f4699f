/-
# Writers that expect a version

Any number of writers put calls to one log, and the log takes them one at a time; a run is
the list of calls in the order in which they were taken. A writer that expects a version is
let in only while the stream has that version, and what it appends takes the stream past it.
So no version is ever expected successfully by two writers that append something, and what is
read of a stream in the end is what was there in the beginning and then the batch of every
writer that was let in, one after another (`Memory.compare_and_swap`).

Deletions of other streams and any questions may come in between. Only the stream itself must
not be deleted: its versions would start again.
-/

import EventLog.Proofs.Store.AllOrNothing

namespace EventLog

variable {ε : Type}

/-! ## Calls as batches -/

/-- What a write puts at the end of a stream: an event given to it or one that is stored. -/
inductive Entry (ε : Type) where
  | given (envelope : Envelope ε)
  | known (id : Uuid)

namespace LogCall

/-- What the call is to put at the end of this stream, in order. -/
def entries (stream : String) : LogCall ε → List (Entry ε)
  | append target batch _ => if target = stream then batch.map .given else []
  | link target ids _ => if target = stream then ids.map .known else []
  | _ => []

/-- The version that the writer expects, if it expects one. -/
def expected : LogCall ε → Option Int
  | append _ _ expected => expected
  | link _ _ expected => expected
  | _ => none

/-- The call has something for this stream and expects this version of it. -/
def swaps (stream : String) (version : Int) (call : LogCall ε) : Bool :=
  !(call.entries stream).isEmpty && call.expected == some version

theorem swaps_iff {stream : String} {version : Int} {call : LogCall ε} :
    call.swaps stream version = true ↔
      call.entries stream ≠ [] ∧ call.expected = some version := by
  simp [swaps]

/-- The call is for this stream, and nothing but the version can be wrong with it. -/
def Ready [EventType ε] (s : Store) (stream : String) : LogCall ε → Prop
  | append target batch _ =>
    target = stream ∧ ∀ envelope ∈ batch, ∃ payload, envelope.event.marshal = .ok payload
  | link target ids _ => target = stream ∧ ∀ id ∈ ids, s.hasEvent id = true
  | _ => False

end LogCall

namespace LogAnswer

/-- Why the call was refused, if it was. -/
def error? : LogAnswer ε → Option Error
  | stored (.error e) => some e
  | version (.error e) => some e
  | done (.error e) => some e
  | truth (.error e) => some e
  | stream (.error e) => some e
  | place (.error e) => some e
  | _ => none

/-- The answer says that `count` events were put behind version `current`: an append shows
each of them with its version, a link says what the last version is now. -/
def Numbers (current : Int) (count : Nat) : LogAnswer ε → Prop
  | stored (.ok returned) =>
    returned.map Envelope.version = (List.range count).map fun i : Nat => some (current + i + 1)
  | version (.ok last) => last = current + count
  | _ => False

end LogAnswer

/-- How an entry reads once it is in a stream of this store. -/
inductive Entry.ReadsAs [EventType ε] (s : Store) : Entry ε → Envelope ε → Prop
  | given {envelope : Envelope ε} {payload : String} {eventId : Uuid} {version position : Int}
      {now : Timestamp} {correlationId : Uuid} (encoded : envelope.event.marshal = .ok payload) :
      ReadsAs s (.given envelope) (.stored eventId version position
        (envelope.headers.stamp now correlationId) (.raw envelope.eventName payload))
  | known {id : Uuid} {version position : Int} {body : StoredEvent}
      (kept : s.events.get? id = some body) :
      ReadsAs s (.known id) (.stored id version position body.headers
        (.raw body.name body.payload))

/-! ## One call and its answer -/

variable [EventType ε]

/-- An entry goes on reading the same while bodies stay as they are. -/
theorem Entry.ReadsAs.mono {s after : Store} {entry : Entry ε} {envelope : Envelope ε}
    (h : entry.ReadsAs s envelope)
    (kept : ∀ id, s.hasEvent id = true → after.events.get? id = s.events.get? id) :
    entry.ReadsAs after envelope := by
  cases h with
  | given encoded => exact .given encoded
  | known hbody =>
      have hid : s.hasEvent _ = true := Option.isSome_iff_exists.mpr ⟨_, hbody⟩
      exact .known ((kept _ hid).trans hbody)

/-- Everything that can come of a call, its answer included. -/
inductive LogCall.Turn (draw : Draw) (s : Store) : LogCall ε → LogAnswer ε → Store → Prop
  | refused {call : LogCall ε} {answer : LogAnswer ε} {e : Error} (error : answer.error? = some e) :
      Turn draw s call answer s
  | appended {stream : String} {batch : List (Envelope ε)} {expected : Option Int}
      {staged : List (Staged ε)} (prepared : Staged.ofEnvelopes draw 0 batch = .ok staged)
      (expectation : versionMatches expected (s.lastVersion stream)) :
      Turn draw s (.append stream batch expected) (.stored (.ok (s.placed stream staged)))
        (s.grown draw.now stream staged)
  | linked {stream : String} {ids : List Uuid} {expected : Option Int}
      (known : ∀ id ∈ ids, s.hasEvent id = true)
      (expectation : versionMatches expected (s.lastVersion stream)) :
      Turn draw s (.link stream ids expected)
        (.version (.ok (s.lastVersion stream + ids.length)))
        (s.extend stream (s.lastVersion stream) ids)
  | deleted {stream : String} : Turn draw s (.delete stream) (.done (.ok ())) (s.without stream)
  | looked {call : LogCall ε} {answer : LogAnswer ε} (done : answer.error? = none)
      (nothing : ∀ stream, call.entries stream = []) : Turn draw s call answer s

namespace Memory

variable (supply : Nat → Draw)

/-- A call to the log in memory takes one of these turns. -/
theorem turn_ask (memory : Memory) (call : LogCall ε) :
    let result := call.ask (access supply) memory
    call.Turn (supply memory.drawn) memory.store result.1 result.2.store := by
  cases call with
  | append stream batch expected =>
      show LogCall.Turn _ _ _ (.stored (memory.append supply stream batch expected).1)
        (memory.append supply stream batch expected).2.store
      rw [append]
      cases h : memory.store.append (supply memory.drawn) stream batch expected with
      | error e => exact .refused rfl
      | ok result =>
          obtain ⟨returned, after⟩ := result
          obtain ⟨-, hversion, staged, hstaged, rfl, rfl⟩ := Store.append_eq_ok_iff.mp h
          exact .appended hstaged hversion
  | link stream ids expected =>
      show LogCall.Turn _ _ _
        (.version (write (fun store => store.link stream ids expected) memory).1)
        (write (fun store => store.link stream ids expected) memory).2.store
      rw [write]
      cases h : memory.store.link stream ids expected with
      | error e => exact .refused rfl
      | ok result =>
          obtain ⟨version, after⟩ := result
          obtain ⟨-, hversion, hknown, rfl, rfl⟩ := Store.link_eq_ok_iff.mp h
          exact .linked hknown hversion
  | delete stream =>
      show LogCall.Turn _ _ _ (.done ((access (ε := ε) supply).delete stream memory).1)
        ((access (ε := ε) supply).delete stream memory).2.store
      rw [delete_eq]
      by_cases hstream : stream = ""
      · rw [if_pos hstream]
        exact .refused rfl
      · rw [if_neg hstream]
        exact .deleted
  | hasEvent id => exact .looked rfl fun _ => rfl
  | streamOf id => exact .looked rfl fun _ => rfl
  | versionIn stream id => exact .looked rfl fun _ => rfl
  | inStream stream id => exact .looked rfl fun _ => rfl
  | lastVersion stream => exact .looked rfl fun _ => rfl

end Memory

/-! ## What a turn does to one stream -/

namespace Store

variable {s : Store}

/-- An append to another stream leaves the read of this one alone. -/
theorem read_grown_of_ne {staged : List (Staged ε)} (h : s.Accepts staged) (hsound : s.Sound)
    (now : Timestamp) {stream other : String} (hne : stream ≠ other) :
    ((s.grown now stream staged).read other : List (Envelope ε)) = s.read other := by
  rw [grown, read_extend, if_neg hne, h.read_keep hsound]

omit [EventType ε] in
theorem read_without_of_ne {stream other : String} (hne : stream ≠ other) :
    ((s.without stream).read other : List (Envelope ε)) = s.read other := by
  rw [read_eq, members_without, if_neg hne, read_eq]
  rfl

/-- A prepared batch reads as what was given. -/
theorem readsAs_of_ofEnvelopes (after : Store) {draw : Draw} {index : Nat}
    {batch : List (Envelope ε)} {staged : List (Staged ε)}
    (h : Staged.ofEnvelopes draw index batch = .ok staged) (position current : Int) :
    List.Forall₂ (Entry.ReadsAs after) (batch.map .given)
      (List.zipWith Staged.readAt staged
        (membersFrom position current (staged.map Staged.eventId))) := by
  induction batch generalizing index staged position current with
  | nil =>
      cases h
      exact .nil
  | cons envelope rest ih =>
      obtain ⟨entry, entries, hentry, hentries, rfl⟩ := Staged.ofEnvelopes_cons_eq_ok_iff.mp h
      obtain ⟨hmarshal, -, henvelope⟩ := Staged.ofEnvelope_eq_ok_iff.mp hentry
      refine .cons ?_ (ih hentries _ _)
      rw [Staged.readAt, Envelope.eventName, henvelope]
      exact .given hmarshal

/-- So do memberships of stored events. -/
theorem readsAs_of_hasEvent {ids : List Uuid} (known : ∀ id ∈ ids, s.hasEvent id = true)
    (position current : Int) :
    List.Forall₂ (Entry.ReadsAs s) (ids.map .known)
      ((membersFrom position current ids).filterMap s.envelope? : List (Envelope ε)) := by
  induction ids generalizing position current with
  | nil => exact .nil
  | cons id rest ih =>
      obtain ⟨body, hbody⟩ := exists_body_of_hasEvent (known id List.mem_cons_self)
      rw [membersFrom, List.filterMap_cons_some (envelope?_eq_some hbody)]
      exact .cons (.known hbody)
        (ih (fun other hother => known other (List.mem_cons_of_mem _ hother)) _ _)

omit [EventType ε] in
/-- The envelopes that an append returns are numbered on from the last version. -/
theorem map_version_placed (s : Store) (stream : String) (staged : List (Staged ε)) :
    (s.placed stream staged).map Envelope.version =
      (List.range staged.length).map fun i : Nat => some (s.lastVersion stream + i + 1) := by
  refine List.ext_getElem? fun i => ?_
  rw [List.getElem?_map, getElem?_placed, List.getElem?_map]
  by_cases h : i < staged.length
  · simp [h, Envelope.persistedAs]
  · simp [h]

omit [EventType ε] in
/-- The versions of a stream as they are read. -/
theorem Sound.version_of_read (h : s.Sound) {stream : String} {i : Nat} {envelope : Envelope ε}
    (hread : (s.read stream)[i]? = some envelope) : envelope.version = some (i + 1 : Int) := by
  rw [read_eq, (getElem?_filterMap_of_isSome fun member hmember =>
    isSome_envelope? (h.stored stream member hmember)).2, Option.bind_eq_some_iff] at hread
  obtain ⟨a, ha, henvelope⟩ := hread
  obtain ⟨body, -, rfl⟩ := Option.map_eq_some_iff.mp henvelope
  exact congrArg some (h.version_of_getElem? ha)

end Store

/-- What the call has put at the end of a stream when it was answered so. -/
def LogCall.landed (stream : String) (call : LogCall ε) (answer : LogAnswer ε) :
    List (Entry ε) :=
  if answer.error? = none then call.entries stream else []

omit [EventType ε] in
theorem LogCall.landed_of_done {stream : String} {call : LogCall ε} {answer : LogAnswer ε}
    (h : answer.error? = none) : call.landed stream answer = call.entries stream := if_pos h

omit [EventType ε] in
theorem LogCall.landed_of_refused {stream : String} {call : LogCall ε} {answer : LogAnswer ε}
    {e : Error} (h : answer.error? = some e) : call.landed stream answer = [] :=
  if_neg (h ▸ nofun)

namespace LogCall.Turn

variable {draw : Draw} {s after : Store} {call : LogCall ε} {answer : LogAnswer ε}
  {stream : String}

/-- A stream that is not deleted grows by what landed in it. -/
theorem length_members (h : call.Turn draw s answer after) (spared : call ≠ .delete stream) :
    (after.members stream).length =
      (s.members stream).length + (call.landed stream answer).length := by
  cases h with
  | refused error =>
      rw [landed_of_refused error]
      rfl
  | @appended target _ _ _ prepared _ =>
      rw [landed_of_done rfl, entries, Store.members_grown]
      by_cases heq : target = stream
      · rw [if_pos heq, if_pos heq, List.length_append, Store.length_membersFrom, List.length_map,
          List.length_map, Staged.length_of_ofEnvelopes prepared, heq]
      · rw [if_neg heq, if_neg heq]
        rfl
  | @linked target _ _ _ _ =>
      rw [landed_of_done rfl, entries, Store.members_extend]
      by_cases heq : target = stream
      · rw [if_pos heq, if_pos heq, List.length_append, Store.length_membersFrom, List.length_map,
          heq]
      · rw [if_neg heq, if_neg heq]
        rfl
  | @deleted target =>
      have hne : target ≠ stream := fun heq => spared (heq ▸ rfl)
      rw [landed_of_done rfl, Store.members_without, if_neg hne]
      rfl
  | looked done nothing => rw [landed_of_done done, nothing]; rfl

/-- A writer whose events landed expected the version that was there, or none, and is told
the versions that they have. -/
theorem numbers (h : call.Turn draw s answer after) (hlanded : call.landed stream answer ≠ []) :
    versionMatches call.expected (s.lastVersion stream) ∧
      answer.Numbers (s.lastVersion stream) (call.landed stream answer).length := by
  cases h with
  | refused error => exact absurd (landed_of_refused error) hlanded
  | @appended target batch _ staged prepared expectation =>
      rw [landed_of_done rfl, entries] at hlanded ⊢
      by_cases heq : target = stream
      · subst heq
        rw [if_pos rfl, List.length_map, ← Staged.length_of_ofEnvelopes prepared]
        exact ⟨expectation, s.map_version_placed target staged⟩
      · exact absurd (if_neg heq) hlanded
  | @linked target ids _ _ expectation =>
      rw [landed_of_done rfl, entries] at hlanded ⊢
      by_cases heq : target = stream
      · subst heq
        rw [if_pos rfl, List.length_map]
        exact ⟨expectation, rfl⟩
      · exact absurd (if_neg heq) hlanded
  | deleted => exact absurd (landed_of_done rfl) hlanded
  | looked done nothing => exact absurd ((landed_of_done done).trans (nothing stream)) hlanded

/-- The read of a stream that is not deleted goes on with what landed in it. -/
theorem read (h : call.Turn draw s answer after) (spared : call ≠ .delete stream)
    (hsound : s.Sound) (fresh : draw.FreshFor s call.drawn) :
    ∃ added, after.read stream = s.read stream ++ added ∧
      List.Forall₂ (Entry.ReadsAs after) (call.landed stream answer) added := by
  cases h with
  | refused error =>
      rw [landed_of_refused error]
      exact ⟨[], (List.append_nil _).symm, .nil⟩
  | @appended target _ _ _ prepared _ =>
      have haccepts := Store.accepts_of_freshFor fresh prepared
      rw [landed_of_done rfl, entries]
      by_cases heq : target = stream
      · subst heq
        rw [if_pos rfl]
        exact ⟨_, Store.read_grown haccepts hsound _ _, Store.readsAs_of_ofEnvelopes _ prepared _ _⟩
      · rw [if_neg heq, Store.read_grown_of_ne haccepts hsound _ heq]
        exact ⟨[], (List.append_nil _).symm, .nil⟩
  | @linked target ids _ known _ =>
      rw [landed_of_done rfl, entries, Store.read_extend]
      by_cases heq : target = stream
      · rw [if_pos heq, if_pos heq, heq]
        exact ⟨_, rfl, Store.readsAs_of_hasEvent (s := s.extend _ _ ids) known _ _⟩
      · rw [if_neg heq, if_neg heq]
        exact ⟨[], (List.append_nil _).symm, .nil⟩
  | @deleted target =>
      have hne : target ≠ stream := fun heq => spared (heq ▸ rfl)
      rw [Store.read_without_of_ne hne]
      exact ⟨[], (List.append_nil _).symm, .nil⟩
  | looked done nothing =>
      rw [landed_of_done done, nothing]
      exact ⟨[], (List.append_nil _).symm, .nil⟩

end LogCall.Turn

/-! ## Any number of calls -/

/-- The calls that were not refused, in the order in which they took effect. -/
def carriedOut (supply : Nat → Draw) : List (LogCall ε) → Memory → List (LogCall ε)
  | [], _ => []
  | call :: rest, memory =>
    let (answer, after) := call.ask (Memory.access supply) memory
    if answer.error? = none then call :: carriedOut supply rest after
    else carriedOut supply rest after

namespace Memory

variable {supply : Nat → Draw} {stream : String}

theorem carriedOut_cons (call : LogCall ε) (rest : List (LogCall ε)) (memory : Memory) :
    carriedOut supply (call :: rest) memory =
      if (call.ask (access supply) memory).1.error? = none then
        call :: carriedOut supply rest (call.ask (access supply) memory).2
      else carriedOut supply rest (call.ask (access supply) memory).2 := rfl

/-- What lands in a stream is what the calls that are carried out have for it. -/
theorem flatMap_carriedOut_cons (call : LogCall ε) (rest : List (LogCall ε)) (memory : Memory) :
    (carriedOut supply (call :: rest) memory).flatMap (LogCall.entries stream) =
      call.landed stream (call.ask (access supply) memory).1 ++
        (carriedOut supply rest (call.ask (access supply) memory).2).flatMap
          (LogCall.entries stream) := by
  rw [carriedOut_cons, LogCall.landed]
  by_cases hdone : (call.ask (access supply) memory).1.error? = none
  · rw [if_pos hdone, if_pos hdone, List.flatMap_cons]
  · rw [if_neg hdone, if_neg hdone, List.nil_append]

theorem length_members_converse {calls : List (LogCall ε)} (memory : Memory)
    (spared : ∀ call ∈ calls, call ≠ .delete stream) :
    ((converse (access supply) calls memory).2.store.members stream).length =
      (memory.store.members stream).length +
        ((carriedOut supply calls memory).flatMap (LogCall.entries stream)).length := by
  induction calls generalizing memory with
  | nil => rfl
  | cons call rest ih =>
      have hturn := (turn_ask supply memory call).length_members (spared call List.mem_cons_self)
      have hrest := ih (call.ask (access supply) memory).2 fun other hother =>
        spared other (List.mem_cons_of_mem _ hother)
      rw [flatMap_carriedOut_cons, List.length_append, ← Nat.add_assoc, ← hturn]
      exact hrest

/-- While a stream is not deleted, no version that it has passed is ever expected with
success, and each other at most once. -/
theorem countP_swaps_carriedOut {calls : List (LogCall ε)} {memory : Memory}
    (hsound : memory.store.Sound) (spared : ∀ call ∈ calls, call ≠ .delete stream)
    (version : Int) :
    (version < memory.store.lastVersion stream →
      (carriedOut supply calls memory).countP (LogCall.swaps stream version) = 0) ∧
    (carriedOut supply calls memory).countP (LogCall.swaps stream version) ≤ 1 := by
  induction calls generalizing memory with
  | nil => exact ⟨fun _ => rfl, Nat.zero_le 1⟩
  | cons call rest ih =>
      have hturn := turn_ask supply memory call
      have hafter := hsound.effect (effect_ask supply memory call)
      obtain ⟨hpassed, hone⟩ := ih hafter fun other hother =>
        spared other (List.mem_cons_of_mem _ hother)
      have hlength := hturn.length_members (spared call List.mem_cons_self)
      rw [hsound.lastVersion_eq]
      rw [hafter.lastVersion_eq] at hpassed
      rw [carriedOut_cons]
      by_cases hdone : (call.ask (access supply) memory).1.error? = none
      · rw [if_pos hdone, List.countP_cons]
        by_cases hswaps : call.swaps stream version = true
        · obtain ⟨hentries, hexpected⟩ := LogCall.swaps_iff.mp hswaps
          rw [← LogCall.landed_of_done hdone] at hentries
          have hmatches := (hturn.numbers hentries).1
          have hpos := List.length_pos_of_ne_nil hentries
          rw [hexpected, versionMatches, hsound.lastVersion_eq] at hmatches
          obtain hmatches | hmatches := hmatches
          · cases hmatches
          · cases hmatches
            rw [if_pos hswaps, hpassed (by omega)]
            omega
        · rw [if_neg hswaps]
          exact ⟨fun hlt => hpassed (by omega), hone⟩
      · rw [if_neg hdone]
        exact ⟨fun hlt => hpassed (by omega), hone⟩

/-- The bodies of a store stay as they are while identifiers are drawn afresh. -/
theorem get?_events_converse {calls : List (LogCall ε)} {memory : Memory}
    (fresh : FreshAlong supply calls memory) {id : Uuid}
    (hid : memory.store.hasEvent id = true) :
    (converse (access supply) calls memory).2.store.events.get? id =
      memory.store.events.get? id := by
  induction calls generalizing memory with
  | nil => rfl
  | cons call rest ih =>
      obtain ⟨hdraw, hrest⟩ := fresh
      have hkept := (effect_ask supply memory call).get?_events hdraw hid
      have hstill : (call.ask (access supply) memory).2.store.hasEvent id = true :=
        (congrArg Option.isSome hkept).trans hid
      exact (ih hrest hstill).trans hkept

/-- A stream that is not deleted reads as before, and then comes what has landed in it. -/
theorem read_converse {calls : List (LogCall ε)} {memory : Memory}
    (hsound : memory.store.Sound) (spared : ∀ call ∈ calls, call ≠ .delete stream)
    (fresh : FreshAlong supply calls memory) :
    ∃ added, (converse (access supply) calls memory).2.store.read stream =
        memory.store.read stream ++ added ∧
      List.Forall₂ (Entry.ReadsAs (converse (access supply) calls memory).2.store)
        ((carriedOut supply calls memory).flatMap (LogCall.entries stream)) added := by
  induction calls generalizing memory with
  | nil => exact ⟨[], (List.append_nil _).symm, .nil⟩
  | cons call rest ih =>
      obtain ⟨hdraw, hrest⟩ := fresh
      have hafter := hsound.effect (effect_ask supply memory call)
      obtain ⟨landed, hread, hlanded⟩ :=
        (turn_ask supply memory call).read (spared call List.mem_cons_self) hsound hdraw
      obtain ⟨added, hreads, hadded⟩ := ih hafter
        (fun other hother => spared other (List.mem_cons_of_mem _ hother)) hrest
      refine ⟨landed ++ added, ?_, ?_⟩
      · rw [← List.append_assoc, ← hread]
        exact hreads
      · rw [flatMap_carriedOut_cons]
        refine List.rel_append (hlanded.imp fun entry envelope h => ?_) hadded
        exact h.mono fun id hid => get?_events_converse hrest hid

/-- For a call with nothing else wrong with it the version decides: where it is the expected
one the call is carried out, and otherwise it is refused and told the version. -/
theorem error?_ask_of_ready {memory : Memory} {call : LogCall ε} (named : stream ≠ "")
    (hready : call.Ready memory.store stream) :
    (call.ask (access supply) memory).1.error? =
      if versionMatches call.expected (memory.store.lastVersion stream) then none
      else some (.conflict stream call.expected (memory.store.lastVersion stream)) := by
  cases call with
  | append target batch expected =>
      obtain ⟨rfl, encodable⟩ := hready
      obtain ⟨staged, hstaged⟩ := Staged.exists_ofEnvelopes (supply memory.drawn) 0 encodable
      have happend := memory.store.append_eq (supply memory.drawn) target batch expected
      rw [if_neg named, hstaged] at happend
      show (LogAnswer.stored (memory.append supply target batch expected).1).error? = _
      rw [append, happend, LogCall.expected]
      by_cases hversion : versionMatches expected (memory.store.lastVersion target)
      · simp only [if_pos hversion, LogAnswer.error?]
      · simp only [if_neg hversion, LogAnswer.error?]
  | link target ids expected =>
      obtain ⟨rfl, known⟩ := hready
      have hlink := memory.store.link_eq target ids expected
      have hfind : (ids.find? fun id => !memory.store.hasEvent id) = none := by simpa using known
      rw [if_neg named, hfind] at hlink
      show (LogAnswer.version (write (fun store => store.link target ids expected) memory).1 :
        LogAnswer ε).error? = _
      rw [write, hlink, LogCall.expected]
      by_cases hversion : versionMatches expected (memory.store.lastVersion target)
      · simp only [if_pos hversion, LogAnswer.error?]
      · simp only [if_neg hversion, LogAnswer.error?]
  | _ => cases hready

/-- Let any calls have been put to the log, and then others that do not delete one stream.
No version of it is expected successfully by two calls with something to put there. A call
that does so, wherever it stands in the run, finds the stream at the version it expects, and
its events get the versions behind it. A call with nothing else wrong with it is refused if it
expects another version than there is, and then it is told that version, and carried out if it
does not. In the end the stream reads as in the beginning and then as the entries of exactly
the calls that were carried out, numbered on without a gap; for the bodies of what was
appended, identifiers have to be drawn afresh. -/
theorem compare_and_swap (supply : Nat → Draw) (earlier calls : List (LogCall ε))
    {stream : String} (named : stream ≠ "") (spared : ∀ call ∈ calls, call ≠ .delete stream) :
    let first := (converse (access supply) earlier empty).2
    let last := (converse (access supply) calls first).2
    (∀ version : Int, (carriedOut supply calls first).countP (LogCall.swaps stream version) ≤ 1) ∧
    (∀ before call after, calls = before ++ call :: after →
      let memory := (converse (access supply) before first).2
      let answer := (call.ask (access supply) memory).1
      let landed := (carriedOut supply before first).flatMap (LogCall.entries stream)
      (∀ version : Int, call.swaps stream version = true → answer.error? = none →
        version = (first.store.members stream).length + landed.length ∧
          answer.Numbers version (call.entries stream).length) ∧
      (call.Ready memory.store stream → answer.error? =
        if versionMatches call.expected (memory.store.lastVersion stream) then none
        else some (.conflict stream call.expected (memory.store.lastVersion stream)))) ∧
    (∀ (i : Nat) (envelope : Envelope ε), (last.store.read stream)[i]? = some envelope →
      envelope.version = some (i + 1 : Int)) ∧
    (FreshAlong supply calls first → ∃ added,
      last.store.read stream = first.store.read stream ++ added ∧
        List.Forall₂ (Entry.ReadsAs last.store)
          ((carriedOut supply calls first).flatMap (LogCall.entries stream)) added) := by
  intro first last
  have hfirst : first.store.Sound := sound_converse supply sound_empty earlier
  have hlast : last.store.Sound := sound_converse supply hfirst calls
  refine ⟨fun version => (countP_swaps_carriedOut hfirst spared version).2, ?_,
    fun i envelope hread => hlast.version_of_read hread,
    fun fresh => read_converse hfirst spared fresh⟩
  rintro before call after rfl memory answer landed
  refine ⟨fun version hswaps hdone => ?_, fun hready => error?_ask_of_ready named hready⟩
  have hmemory : memory.store.Sound := sound_converse supply hfirst before
  have hlength : (memory.store.members stream).length =
      (first.store.members stream).length + landed.length :=
    length_members_converse first fun other hother =>
      spared other (List.mem_append_left _ hother)
  obtain ⟨hentries, hexpected⟩ := LogCall.swaps_iff.mp hswaps
  rw [← LogCall.landed_of_done hdone] at hentries ⊢
  obtain ⟨hmatches, hnumbers⟩ := (turn_ask supply memory call).numbers hentries
  rw [hexpected] at hmatches
  obtain hmatches | hmatches := hmatches
  · cases hmatches
  · obtain rfl : memory.store.lastVersion stream = version := (Option.some.inj hmatches).symm
    refine ⟨?_, hnumbers⟩
    rw [hmemory.lastVersion_eq, hlength]
    push_cast
    rfl

/-- Two writers expect the first version, and then a stored event is linked behind what the
one that came first has appended. -/
theorem compare_and_swap_two_writers :
    let note (text : String) : Envelope OrderEvent := .fresh "agg" (.raw "Noted" text)
    let earlier := [.append "s" [note "1"] none]
    let calls := [.append "s" [note "2", note "3"] (some 1), .append "s" [note "4"] (some 1),
      .delete "t", .link "s" [(countingSupply 0).eventId 0] (some 3)]
    let first := (converse (access countingSupply) earlier empty).2
    let last := (converse (access countingSupply) calls first).2
    (∀ call ∈ calls, call ≠ LogCall.delete "s") ∧ FreshAlong countingSupply calls first ∧
      ∃ added, last.store.read "s" = first.store.read "s" ++ added ∧
        List.Forall₂ (Entry.ReadsAs last.store)
          [.given (note "2"), .given (note "3"), .known ((countingSupply 0).eventId 0)] added := by
  intro note earlier calls first last
  have hspared : ∀ call ∈ calls, call ≠ LogCall.delete "s" := by
    simp [calls]
  have hfresh : FreshAlong countingSupply calls first := by
    refine ⟨⟨by decide, by decide⟩, ⟨by decide, by decide⟩, ⟨by decide, by decide⟩,
      ⟨by decide, by decide⟩, trivial⟩
  have hall := compare_and_swap countingSupply earlier calls (by decide) hspared
  exact ⟨hspared, hfresh, hall.2.2.2 hfresh⟩

end Memory

end EventLog
