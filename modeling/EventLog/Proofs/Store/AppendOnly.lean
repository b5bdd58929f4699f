/-
# Streams only grow, and bodies stay

A log is read over and over while others write to it, so what has been read has to stay true.
`Store.Continues` says of two moments of a log that a stream has only grown between them and
that every body is still the one it was; then whatever could be read of the stream reads the
same, under any filter (`Continues.mem_query_iff`). Any calls lead from a log to one that
continues it, as long as the stream is not deleted and identifiers are drawn afresh.

That the log goes on knowing an event takes neither of these. Deletions take away where
events stand and never the events, so one whose streams are all gone can be put into a
stream again and is read as it was (`Memory.append_only`).
-/

import EventLog.Proofs.Store.CompareAndSwap

namespace EventLog

variable {ε : Type}

namespace Store

/-! ## Reading by membership -/

section Reading

variable {s : Store} {envelope : Envelope ε}

theorem mem_read_iff {stream : String} :
    envelope ∈ s.read stream ↔ ∃ a ∈ s.members stream, s.envelope? a = some envelope := by
  rw [read_eq, List.mem_filterMap]

/-- A read that stops nowhere returns the envelopes of the memberships it admits. -/
theorem mem_query_iff {spec : ReadSpec} (unlimited : spec.limit = none) :
    envelope ∈ s.query spec ↔
      ∃ a ∈ s.members spec.stream, s.admitted spec a = true ∧ s.envelope? a = some envelope := by
  rw [query, matching, ReadSpec.limited, unlimited, List.mem_filterMap]
  constructor
  · rintro ⟨a, ha, henvelope⟩
    obtain ⟨ha, hadmitted⟩ := List.mem_filter.mp ha
    exact ⟨a, ReadSpec.mem_directed.mp ha, hadmitted, henvelope⟩
  · rintro ⟨a, ha, hadmitted, henvelope⟩
    exact ⟨a, List.mem_filter.mpr ⟨ReadSpec.mem_directed.mpr ha, hadmitted⟩, henvelope⟩

/-- An envelope that is read stands where its membership does and shows its body. -/
theorem eq_stored_of_envelope? {a : Membership} (h : s.envelope? a = some envelope) :
    ∃ body, s.events.get? a.eventId = some body ∧
      envelope = .stored a.eventId a.version a.position body.headers
        (.raw body.name body.payload) := by
  obtain ⟨body, hbody, rfl⟩ := Option.map_eq_some_iff.mp h
  exact ⟨body, hbody, rfl⟩

/-- Whatever can be read of a stream is the reading of a stored event. -/
theorem readsAs_of_mem_read [EventType ε] {stream : String} (h : envelope ∈ s.read stream) :
    ∃ id, envelope.eventId = some id ∧ (Entry.known id).ReadsAs s envelope := by
  obtain ⟨a, -, ha⟩ := mem_read_iff.mp h
  obtain ⟨body, hbody, rfl⟩ := eq_stored_of_envelope? ha
  exact ⟨a.eventId, rfl, .known hbody⟩

end Reading

/-! ## Two moments of a log -/

/-- At the later moment the stream has all that it had, in front of what has come since, and
every body is still there and the same. -/
structure Continues (stream : String) (s after : Store) : Prop where
  members : s.members stream <+: after.members stream
  bodies : ∀ id, s.hasEvent id = true → after.events.get? id = s.events.get? id

namespace Continues

variable {stream : String} {s after : Store}

variable (h : Continues stream s after) (hsound : s.Sound)

include h hsound

/-- A membership reads as it did. -/
theorem envelope?_eq {a : Membership} (ha : a ∈ s.members stream) :
    (after.envelope? a : Option (Envelope ε)) = s.envelope? a := by
  unfold envelope?
  rw [h.bodies _ (hsound.stored stream a ha)]

/-- So does a part of the stream. -/
theorem filterMap_envelope?_eq {members : List Membership} (hpart : members ⊆ s.members stream) :
    (members.filterMap after.envelope? : List (Envelope ε)) = members.filterMap s.envelope? :=
  List.filterMap_congr fun _ ha => h.envelope?_eq hsound (hpart ha)

/-- A filter does not change its mind about a membership. -/
theorem admitted_eq {a : Membership} (ha : a ∈ s.members stream) (spec : ReadSpec) :
    after.admitted spec a = s.admitted spec a := by
  unfold admitted
  rw [h.bodies _ (hsound.stored stream a ha)]

theorem read_prefix : (s.read stream : List (Envelope ε)) <+: after.read stream := by
  obtain ⟨added, hadded⟩ := h.members
  refine ⟨added.filterMap after.envelope?, ?_⟩
  rw [read_eq, read_eq, ← hadded, List.filterMap_append,
    h.filterMap_envelope?_eq hsound (List.Subset.refl _)]

/-- What has been read of a stream passes the filters of a read at the later moment if it did
at the earlier one. -/
theorem mem_query_iff (hsound' : after.Sound) {spec : ReadSpec} (hspec : spec.stream = stream)
    (unlimited : spec.limit = none) {envelope : Envelope ε} (hread : envelope ∈ s.read stream) :
    envelope ∈ after.query spec ↔ envelope ∈ s.query spec := by
  subst hspec
  rw [Store.mem_query_iff unlimited, Store.mem_query_iff unlimited]
  constructor
  · rintro ⟨b, hb, hadmitted, hb'⟩
    obtain ⟨a, ha, ha'⟩ := mem_read_iff.mp hread
    -- Both stand at the position that the envelope shows, and only one membership does.
    obtain ⟨body, -, rfl⟩ := eq_stored_of_envelope? ha'
    obtain ⟨body', -, heq⟩ := eq_stored_of_envelope? hb'
    have hposition : a.position = b.position := Option.some.inj (congrArg Envelope.position heq)
    obtain rfl : a = b :=
      (hsound'.apart _ _ a (h.members.subset ha) b hb hposition).2
    exact ⟨a, ha, (h.admitted_eq hsound ha spec).symm.trans hadmitted, ha'⟩
  · rintro ⟨a, ha, hadmitted, ha'⟩
    exact ⟨a, h.members.subset ha, (h.admitted_eq hsound ha spec).trans hadmitted,
      (h.envelope?_eq hsound ha).trans ha'⟩

end Continues

end Store

variable [EventType ε]

/-- No call makes the log forget an event. -/
theorem LogCall.Effect.hasEvent {draw : Draw} {s after : Store} {call : LogCall ε}
    (h : call.Effect draw s after) {id : Uuid} (hid : s.hasEvent id = true) :
    after.hasEvent id = true := by
  cases h with
  | unchanged => exact hid
  | appended => exact Store.hasEvent_keep.mpr (.inr hid)
  | linked => exact hid
  | deleted => exact hid

namespace Memory

variable {supply : Nat → Draw} {calls : List (LogCall ε)} {memory : Memory} {stream : String}

theorem hasEvent_converse {id : Uuid} (hid : memory.store.hasEvent id = true) :
    (converse (access supply) calls memory).2.store.hasEvent id = true :=
  converse_keeps (P := fun later : Memory => later.store.hasEvent id = true)
    (fun call later h => (effect_ask supply later call).hasEvent h) calls hid

theorem members_grows_converse (spared : ∀ call ∈ calls, call ≠ .delete stream) :
    memory.store.members stream <+:
      (converse (access supply) calls memory).2.store.members stream := by
  induction calls generalizing memory with
  | nil => exact List.prefix_rfl
  | cons call rest ih =>
      have hcall := (effect_ask supply memory call).members_grows
        (spared call List.mem_cons_self)
      exact hcall.trans (ih fun other hother => spared other (List.mem_cons_of_mem _ hother))

theorem continues_converse (spared : ∀ call ∈ calls, call ≠ .delete stream)
    (fresh : FreshAlong supply calls memory) :
    Store.Continues stream memory.store (converse (access supply) calls memory).2.store :=
  ⟨members_grows_converse spared, fun _ hid => get?_events_converse fresh hid⟩

/-- Stored events can be linked to any stream that is at the version expected, and they read
as they would have at any earlier moment at which they were stored. -/
theorem link_stored {earlier : Store} {ids : List Uuid} {expected : Option Int}
    (named : stream ≠ "") (known : ∀ id ∈ ids, memory.store.hasEvent id = true)
    (expectation : versionMatches expected (memory.store.lastVersion stream))
    (stored : ∀ id ∈ ids, earlier.hasEvent id = true)
    (bodies : ∀ id ∈ ids, memory.store.events.get? id = earlier.events.get? id) :
    let result := (access (ε := ε) supply).link stream ids expected memory
    result.1 = .ok (memory.store.lastVersion stream + ids.length) ∧
      ∃ added, result.2.store.read stream = memory.store.read stream ++ added ∧
        List.Forall₂ (fun id => (Entry.known id).ReadsAs (ε := ε) earlier) ids added := by
  intro result
  have hlinked : memory.store.link stream ids expected =
      .ok (memory.store.lastVersion stream + ids.length,
        memory.store.extend stream (memory.store.lastVersion stream) ids) :=
    Store.link_eq_ok_iff.mpr ⟨named, expectation, known, rfl, rfl⟩
  have hresult : result = write (fun store => store.link stream ids expected) memory := rfl
  rw [write, hlinked] at hresult
  rw [hresult]
  refine ⟨rfl, _, (Store.read_extend _ _ _ _ _).trans (if_pos rfl), ?_⟩
  have hsame : ((Store.membersFrom memory.store.lastPosition (memory.store.lastVersion stream)
      ids).filterMap memory.store.envelope? : List (Envelope ε)) =
      (Store.membersFrom memory.store.lastPosition (memory.store.lastVersion stream)
        ids).filterMap earlier.envelope? := by
    apply List.filterMap_congr
    intro a ha
    unfold Store.envelope?
    rw [bodies _ (Store.mem_membersFrom ha).2.2]
  rw [hsame]
  exact List.forall₂_map_left_iff.mp (Store.readsAs_of_hasEvent stored _ _)

/-- Let any calls have been put to the log, and then any others. What the log knows after the
first it knows after the others. Every stream that the others do not delete has kept its
memberships and only got more; and if they draw their identifiers afresh, what was read of it
is the beginning of what is read of it now, envelope by envelope, and passes the filters of
any read now if it did then.

An event that was known can be put into any stream again, whatever has been deleted, and
reads with the name, the payload and the headers with which it was read wherever it stood. -/
theorem append_only (supply : Nat → Draw) (earlier calls : List (LogCall ε)) :
    let first := (converse (access supply) earlier empty).2
    let last := (converse (access supply) calls first).2
    (∀ id, first.store.hasEvent id = true → last.store.hasEvent id = true) ∧
    (∀ stream, (∀ call ∈ calls, call ≠ .delete stream) →
      first.store.members stream <+: last.store.members stream ∧
      (FreshAlong supply calls first →
        (first.store.read stream : List (Envelope ε)) <+: last.store.read stream ∧
        ∀ (spec : ReadSpec) (envelope : Envelope ε), spec.stream = stream → spec.limit = none →
          envelope ∈ first.store.read stream →
            (envelope ∈ last.store.query spec ↔ envelope ∈ first.store.query spec))) ∧
    (∀ stream (envelope : Envelope ε), envelope ∈ first.store.read stream →
      ∃ id, envelope.eventId = some id ∧ (Entry.known id).ReadsAs first.store envelope) ∧
    (FreshAlong supply calls first → ∀ stream ids expected, stream ≠ "" →
      (∀ id ∈ ids, first.store.hasEvent id = true) →
      versionMatches expected (last.store.lastVersion stream) →
        let result := (access (ε := ε) supply).link stream ids expected last
        result.1 = .ok (last.store.lastVersion stream + ids.length) ∧
          ∃ added, result.2.store.read stream = last.store.read stream ++ added ∧
            List.Forall₂ (fun id => (Entry.known id).ReadsAs (ε := ε) first.store) ids added) := by
  intro first last
  have hfirst : first.store.Sound := sound_converse supply sound_empty earlier
  have hlast : last.store.Sound := sound_converse supply hfirst calls
  refine ⟨fun id => hasEvent_converse, fun stream spared => ?_,
    fun stream envelope => Store.readsAs_of_mem_read,
    fun fresh stream ids expected named known expectation => ?_⟩
  · refine ⟨members_grows_converse spared, fun fresh => ?_⟩
    have hcontinues : Store.Continues stream first.store last.store :=
      continues_converse spared fresh
    exact ⟨hcontinues.read_prefix hfirst, fun spec envelope hspec unlimited hread =>
      hcontinues.mem_query_iff hfirst hlast hspec unlimited hread⟩
  · exact link_stored named (fun id hid => hasEvent_converse (known id hid)) expectation known
      fun id hid => get?_events_converse fresh (known id hid)

/-- One of two notes is linked to another stream, the only stream of the other one is deleted
and the first stream goes on. Then the second note is linked to it. -/
theorem append_only_deleted_stream :
    let note (text : String) : Envelope OrderEvent := .fresh "agg" (.raw "Noted" text)
    let one := (countingSupply 0).eventId 0
    let two := (countingSupply 1).eventId 0
    let earlier := [.append "s" [note "1"] none, .append "x" [note "2"] none]
    let calls := [.link "t" [one] none, .delete "x", .append "s" [note "3"] (some 1)]
    let first := (converse (access countingSupply) earlier empty).2
    let last := (converse (access countingSupply) calls first).2
    let since : ReadSpec := { ReadSpec.whole "s" with fromTime := some .epoch }
    let linked := (access (ε := OrderEvent) countingSupply).link "s" [two] (some 2) last
    (∀ call ∈ calls, call ≠ .delete "s") ∧ FreshAlong countingSupply calls first ∧
      (first.store.read "s" : List (Envelope OrderEvent)) <+: last.store.read "s" ∧
      (∀ envelope : Envelope OrderEvent, envelope ∈ first.store.read "s" →
        (envelope ∈ last.store.query since ↔ envelope ∈ first.store.query since)) ∧
      last.store.streamOf two = none ∧ last.store.hasEvent two = true ∧
      linked.1 = .ok 3 ∧ ∃ added, linked.2.store.read "s" = last.store.read "s" ++ added ∧
        List.Forall₂ (fun id => (Entry.known id).ReadsAs (ε := OrderEvent) first.store) [two]
          added := by
  intro note one two earlier calls first last since linked
  have hspared : ∀ call ∈ calls, call ≠ .delete "s" := by
    simp [calls]
  have hfresh : FreshAlong countingSupply calls first := by
    refine ⟨⟨by decide, by decide⟩, ⟨by decide, by decide⟩, ⟨by decide, by decide⟩, trivial⟩
  obtain ⟨hknown, hgrown, -, hlink⟩ := append_only countingSupply earlier calls
  obtain ⟨-, hread⟩ := hgrown "s" hspared
  obtain ⟨hgrows, hfilter⟩ := hread hfresh
  have hversion : last.store.lastVersion "s" = 2 := by decide
  obtain ⟨hanswer, hadded⟩ := hlink hfresh "s" [two] (some 2) (by decide) (by decide)
    (.inr (congrArg some hversion.symm))
  rw [hversion] at hanswer
  refine ⟨hspared, hfresh, hgrows, fun envelope => hfilter since envelope rfl rfl, by decide,
    hknown two (by decide), hanswer, ?_⟩
  simp only [linked, last, first]
  exact hadded

end Memory

end EventLog
