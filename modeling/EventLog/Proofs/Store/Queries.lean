/-
# What a query is answered with

A query passes through three hands before it is answered: it is checked and frozen into a read,
the read filters, directs and stops the memberships of its stream, and each membership that is
left is given its body. What a query means can be said without any of them. `Store.Selects` says
which memberships it is about and in which order, and `Store.Shows` what is seen of one of them;
every way of asking is then described by the one list of envelopes that show the memberships
selected (`Memory.reads_what_is_asked`).

Filtering comes first, then the direction, then the limit. The bodies come last and are
harmless there because none is missing in a sound store: a list in which nothing is passed over
may be stopped before or after it is read.
-/

import EventLog.Proofs.ReadQuery
import EventLog.Proofs.Store.AppendOnly

namespace EventLog

variable {ε : Type}

/-! ## Asking -/

/-- Put what is selected in version order into this direction. -/
def ReadDirection.along {α : Type} : ReadDirection → List α → List α
  | .forward, selected => selected
  | .backward, selected => selected.reverse

/-- Stop at a limit, if there is one. -/
def upTo {α : Type} (limit : Option Nat) (selected : List α) : List α :=
  limit.elim selected fun k => selected.take k

namespace ReadQuery

/-- An event at this position, stored at this time, is within every bound that is set. -/
structure Bounds (q : ReadQuery) (position : Int) (createdAt : Timestamp) : Prop where
  fromTime : ∀ time, q.fromTime = some time → time ≤ createdAt
  toTime : ∀ time, q.toTime = some time → createdAt ≤ time
  fromPosition : ∀ first, q.fromPosition = some first → first ≤ position
  toPosition : ∀ last, q.toPosition = some last → position ≤ last

end ReadQuery

/-! ## What is selected -/

theorem ReadSpec.holdsOf_eq_true_iff {α : Type} {bound : Option α} {p : α → Bool} :
    holdsOf bound p = true ↔ ∀ b, bound = some b → p b = true := by
  cases bound with
  | none => simp [holdsOf]
  | some b => simp [holdsOf]

theorem ReadSpec.admits_specOf_iff {q : ReadQuery} {stream : String} {ids : Option (List Uuid)}
    {position : Int} {createdAt : Timestamp} {id : Uuid} :
    (q.specOf stream ids).admits position createdAt id = true ↔
      q.Bounds position createdAt ∧ holdsOf ids (fun ids => ids.contains id) = true := by
  unfold admits
  simp only [Bool.and_eq_true, holdsOf_eq_true_iff (p := fun t : Timestamp => _),
    holdsOf_eq_true_iff (p := fun n : Int => _), decide_eq_true_eq]
  constructor
  · rintro ⟨⟨⟨⟨hfromTime, htoTime⟩, hfrom⟩, hto⟩, hids⟩
    exact ⟨⟨hfromTime, htoTime, hfrom, hto⟩, hids⟩
  · rintro ⟨⟨hfromTime, htoTime, hfrom, hto⟩, hids⟩
    exact ⟨⟨⟨⟨hfromTime, htoTime⟩, hfrom⟩, hto⟩, hids⟩

namespace Store

/-- The event of a membership was stored at a time, and stands at a position, within the
bounds. -/
def Passes (s : Store) (q : ReadQuery) (a : Membership) : Prop :=
  ∃ body, s.events.get? a.eventId = some body ∧ q.Bounds a.position body.createdAt

/-- These are the memberships of the stream that pass the bounds, up the versions. -/
structure Selects (s : Store) (q : ReadQuery) (stream : String) (selected : List Membership) :
    Prop where
  sublist : selected.Sublist (s.members stream)
  mem_iff : ∀ a, a ∈ selected ↔ a ∈ s.members stream ∧ s.Passes q a
  ascending : selected.Pairwise fun a b => a.version < b.version

/-- The envelope is the event of the membership with its body as it was stored. -/
def Shows (s : Store) (a : Membership) (envelope : Envelope ε) : Prop :=
  ∃ body, s.events.get? a.eventId = some body ∧
    envelope = .stored a.eventId a.version a.position body.headers (.raw body.name body.payload)

variable {s : Store} {q : ReadQuery} {stream : String}

/-- The memberships a query is about, whatever its direction and limit. -/
def selected (s : Store) (q : ReadQuery) (stream : String) : List Membership :=
  (s.members stream).filter (s.admitted (q.specOf stream none))

theorem admitted_specOf_iff {ids : Option (List Uuid)} {a : Membership} :
    s.admitted (q.specOf stream ids) a = true ↔
      s.Passes q a ∧ ReadSpec.holdsOf ids (fun ids => ids.contains a.eventId) = true := by
  unfold admitted Passes
  cases hbody : s.events.get? a.eventId with
  | none => simp
  | some body => simp [ReadSpec.admits_specOf_iff]

/-- A restriction to certain events is one more filter. -/
theorem admitted_specOf_eq (ids : Option (List Uuid)) (a : Membership) :
    s.admitted (q.specOf stream ids) a =
      (s.admitted (q.specOf stream none) a &&
        ReadSpec.holdsOf ids fun ids => ids.contains a.eventId) := by
  rw [Bool.eq_iff_iff, Bool.and_eq_true, admitted_specOf_iff, admitted_specOf_iff]
  simp [ReadSpec.holdsOf]

theorem Sound.selects_selected (h : s.Sound) (q : ReadQuery) (stream : String) :
    s.Selects q stream (s.selected q stream) where
  sublist := List.filter_sublist
  mem_iff a := by
    rw [selected, List.mem_filter, admitted_specOf_iff]
    simp [ReadSpec.holdsOf]
  ascending := (h.version_lt_of_pairwise stream).sublist List.filter_sublist

end Store

/-! ## Order and limit -/

section Order

variable {α β : Type} (direction : ReadDirection) (limit : Option Nat) (selected : List α)

theorem filter_along (p : α → Bool) :
    (direction.along selected).filter p = direction.along (selected.filter p) := by
  cases direction with
  | forward => rfl
  | backward => exact List.filter_reverse

theorem filterMap_along (f : α → Option β) :
    (direction.along selected).filterMap f = direction.along (selected.filterMap f) := by
  cases direction with
  | forward => rfl
  | backward => exact List.filterMap_reverse

variable {direction limit selected}

theorem mem_along {a : α} : a ∈ direction.along selected ↔ a ∈ selected := by
  cases direction with
  | forward => exact Iff.rfl
  | backward => exact List.mem_reverse

/-- What is read of a list in which nothing is passed over may be stopped before or after. -/
theorem filterMap_upTo {f : α → Option β} (h : ∀ a ∈ selected, (f a).isSome) :
    (upTo limit selected).filterMap f = upTo limit (selected.filterMap f) := by
  cases limit with
  | none => rfl
  | some k =>
      have htaken : ∀ a ∈ selected.take k, (f a).isSome :=
        fun a ha => h a (List.mem_of_mem_take ha)
      apply List.ext_getElem?
      intro i
      show ((selected.take k).filterMap f)[i]? = ((selected.filterMap f).take k)[i]?
      rw [(Store.getElem?_filterMap_of_isSome htaken).2, List.getElem?_take, List.getElem?_take,
        (Store.getElem?_filterMap_of_isSome h).2]
      split
      · rfl
      · rfl

theorem head?_upTo_one : (upTo (some 1) selected).head? = selected.head? := by
  cases selected with
  | nil => rfl
  | cons a rest => rfl

end Order

/-! ## What is read -/

namespace Store

variable {s : Store} {q : ReadQuery} {stream : String}

theorem matching_specOf (s : Store) (q : ReadQuery) (stream : String) (ids : Option (List Uuid)) :
    s.matching (q.specOf stream ids) =
      upTo q.limit (q.direction.along ((s.selected q stream).filter fun a =>
        ReadSpec.holdsOf ids fun ids => ids.contains a.eventId)) := by
  have hfilter : (s.members stream).filter (s.admitted (q.specOf stream ids)) =
      (s.selected q stream).filter fun a =>
        ReadSpec.holdsOf ids fun ids => ids.contains a.eventId := by
    rw [selected, List.filter_filter]
    apply List.filter_congr
    intro a _
    rw [admitted_specOf_eq, Bool.and_comm]
  rw [← hfilter, ← filter_along]
  unfold matching ReadSpec.limited ReadSpec.directed upTo ReadDirection.along ReadQuery.specOf
  cases q.limit <;> cases q.direction <;> rfl

/-- The envelopes that show the memberships selected. -/
def shown (s : Store) (q : ReadQuery) (stream : String) : List (Envelope ε) :=
  (s.selected q stream).filterMap s.envelope?

namespace Sound

variable (h : s.Sound)

include h

theorem isSome_of_mem_selected {a : Membership} (ha : a ∈ s.selected q stream) :
    (s.envelope? a : Option (Envelope ε)).isSome :=
  isSome_envelope? (h.stored stream a (List.mem_filter.mp ha).1)

theorem shows_shown (q : ReadQuery) (stream : String) :
    List.Forall₂ s.Shows (s.selected q stream) (s.shown q stream : List (Envelope ε)) := by
  have hall : ∀ a ∈ s.selected q stream, (s.envelope? a : Option (Envelope ε)).isSome :=
    fun a ha => h.isSome_of_mem_selected ha
  rw [shown]
  generalize s.selected q stream = members at hall ⊢
  induction members with
  | nil => exact .nil
  | cons a rest ih =>
      obtain ⟨envelope, henvelope⟩ := Option.isSome_iff_exists.mp (hall a List.mem_cons_self)
      rw [List.filterMap_cons_some henvelope]
      exact .cons (eq_stored_of_envelope? henvelope)
        (ih fun other hother => hall other (List.mem_cons_of_mem _ hother))

/-- Events are told apart by their identifiers before and after they are read. -/
theorem filterMap_filter_selected (q : ReadQuery) (stream : String) (ids : List Uuid) :
    ((s.selected q stream).filter fun a => ids.contains a.eventId).filterMap s.envelope? =
      (s.shown q stream : List (Envelope ε)).filter fun e => e.eventId ∈ ids.map some := by
  rw [List.filterMap_filter, shown, List.filter_filterMap]
  apply List.filterMap_congr
  intro a ha
  obtain ⟨envelope, henvelope⟩ := Option.isSome_iff_exists.mp (h.isSome_of_mem_selected ha)
  obtain ⟨body, -, rfl⟩ := eq_stored_of_envelope? henvelope
  rw [henvelope, Option.filter_some]
  simp [Envelope.stored]

/-- An unrestricted read returns what is shown, in its direction and up to its limit. -/
theorem query_specOf_none (q : ReadQuery) (stream : String) :
    s.query (q.specOf stream none) =
      upTo q.limit (q.direction.along (s.shown q stream : List (Envelope ε))) := by
  have hall : ∀ a ∈ q.direction.along (s.selected q stream),
      (s.envelope? a : Option (Envelope ε)).isSome :=
    fun a ha => h.isSome_of_mem_selected (mem_along.mp ha)
  rw [query, matching_specOf, shown, ← filterMap_along, ← filterMap_upTo hall]
  simp only [ReadSpec.holdsOf, List.filter_true]

/-- A restricted one returns those of them that are asked for, and only then is it stopped. -/
theorem query_specOf_some (q : ReadQuery) (stream : String) (ids : List Uuid) :
    s.query (q.specOf stream (some ids)) =
      upTo q.limit ((q.direction.along (s.shown q stream : List (Envelope ε))).filter
        fun e => e.eventId ∈ ids.map some) := by
  have hall : ∀ a ∈ q.direction.along
      ((s.selected q stream).filter fun a => ids.contains a.eventId),
      (s.envelope? a : Option (Envelope ε)).isSome :=
    fun a ha => h.isSome_of_mem_selected (List.mem_filter.mp (mem_along.mp ha)).1
  rw [query, matching_specOf, filter_along, ← h.filterMap_filter_selected, ← filterMap_along,
    ← filterMap_upTo hall]
  rfl

/-- No membership that matches a read is passed over when it is answered. -/
theorem length_query (spec : ReadSpec) :
    (s.query spec : List (Envelope ε)).length = s.count spec := by
  have hmatching : ∀ a ∈ s.matching spec, (s.envelope? a : Option (Envelope ε)).isSome :=
    fun a ha => isSome_envelope? (h.stored spec.stream a (mem_members_of_mem_matching ha))
  exact (getElem?_filterMap_of_isSome hmatching).1

end Sound

end Store

/-! ## Every way of asking -/

namespace Memory

variable [EventType ε] {supply : Nat → Draw} {memory : Memory} {q : ReadQuery} {stream : String}

section Answers

variable (hsound : memory.store.Sound) (named : stream ≠ "") (paired : q.Paired)

include hsound named paired

section Named

variable (hstream : q.stream = some stream)

include hstream

theorem toList_eq : q.toList (access (ε := ε) supply).query memory =
    (.ok (upTo q.limit (q.direction.along (memory.store.shown q stream))), memory) := by
  rw [ReadQuery.toList, ReadQuery.answer_eq hstream named paired, ← hsound.query_specOf_none]
  rfl

theorem count_eq : q.count (access (ε := ε) supply).count memory =
    (.ok (upTo q.limit (q.direction.along
      (memory.store.shown q stream : List (Envelope ε)))).length, memory) := by
  rw [ReadQuery.count, ReadQuery.answer_eq hstream named paired, ← hsound.query_specOf_none,
    hsound.length_query]
  rfl

theorem events_eq (ids : List Uuid) : q.events ids (access (ε := ε) supply).query memory =
    (.ok (upTo q.limit ((q.direction.along (memory.store.shown q stream)).filter
      fun e => e.eventId ∈ ids.map some)), memory) := by
  rw [ReadQuery.events, ReadQuery.answer_eq hstream named paired, ← hsound.query_specOf_some]
  rfl

/-- The limit that a query has been given is replaced when it asks for one event. -/
theorem event_eq (id : Uuid) : q.event id (access (ε := ε) supply).query memory =
    (.ok ((q.direction.along (memory.store.shown q stream)).find? fun e => e.eventId = some id),
      memory) := by
  have hquery : memory.store.query { q.specOf stream (some [id]) with limit := some 1 } =
      upTo (some 1) ((q.direction.along (memory.store.shown q stream : List (Envelope ε))).filter
        fun e => e.eventId ∈ [id].map some) :=
    hsound.query_specOf_some { q with limit := some 1 } stream [id]
  have hhead : (memory.store.query { q.specOf stream (some [id]) with limit := some 1 }).head? =
      (q.direction.along (memory.store.shown q stream : List (Envelope ε))).find?
        fun e => e.eventId = some id := by
    rw [hquery, head?_upTo_one, List.head?_filter]
    simp only [List.map_singleton, List.mem_singleton]
  rw [ReadQuery.event, ReadQuery.first_eq hstream named paired, ← hhead]
  rfl

end Named

/-- The stream, the direction and the limit are replaced when a query asks for the last event. -/
theorem last_eq : q.last stream (access (ε := ε) supply).query memory =
    (.ok (memory.store.shown q stream).getLast?, memory) := by
  have hpaired : (q.latestOf stream).Paired := ⟨paired.time, paired.position⟩
  have hquery : memory.store.query ((q.latestOf stream).specOf stream none) =
      upTo (some 1) (memory.store.shown q stream : List (Envelope ε)).reverse :=
    hsound.query_specOf_none (q.latestOf stream) stream
  have hhead : (memory.store.query ((q.latestOf stream).specOf stream none)).head? =
      (memory.store.shown q stream : List (Envelope ε)).getLast? := by
    rw [hquery, head?_upTo_one, List.head?_reverse]
  rw [ReadQuery.last, ReadQuery.first_eq rfl named hpaired, ← hhead]
  rfl

end Answers

/-- After any calls on an empty log, take any stream with a name and any query whose upper bounds
come with their lower bounds; which stream, direction and limit the query has been given does
not matter here, they are varied below.

Every membership of the stream has a body. Exactly the memberships within the bounds are
selected, up the versions, and there is one list of envelopes that shows them one by one. In
every direction and with every limit the query returns this list so directed and stopped there,
and its count is the length of what it returns; restricted to certain events it returns those
of the directed list that are among them, and stops only then; asked for one event it returns
the first that is that event, wherever it would have stopped. Asked for the last event of the
stream it returns the last of the list. Nothing that is asked changes the log. -/
theorem reads_what_is_asked (supply : Nat → Draw) (calls : List (LogCall ε)) (q : ReadQuery)
    {stream : String} (named : stream ≠ "") (paired : q.Paired) :
    let memory := (converse (access supply) calls empty).2
    let log : Access ε (StateM Memory) := access supply
    (∀ a ∈ memory.store.members stream, ∃ body, memory.store.events.get? a.eventId = some body) ∧
    ∃ (selected : List Membership) (shown : List (Envelope ε)),
      memory.store.Selects q stream selected ∧
      List.Forall₂ memory.store.Shows selected shown ∧
      (∀ direction limit,
        let asked := { q with stream := some stream, direction, limit }
        let directed := direction.along shown
        asked.toList log.query memory = (.ok (upTo limit directed), memory) ∧
        asked.count log.count memory = (.ok (upTo limit directed).length, memory) ∧
        (∀ ids, asked.events ids log.query memory =
          (.ok (upTo limit (directed.filter fun e => e.eventId ∈ ids.map some)), memory)) ∧
        ∀ id, asked.event id log.query memory =
          (.ok (directed.find? fun e => e.eventId = some id), memory)) ∧
      q.last stream log.query memory = (.ok shown.getLast?, memory) := by
  intro memory log
  have hsound : memory.store.Sound := sound_converse supply Store.Sound.empty calls
  have hbodies : ∀ a ∈ memory.store.members stream,
      ∃ body, memory.store.events.get? a.eventId = some body :=
    fun a ha => Store.exists_body_of_hasEvent (hsound.stored stream a ha)
  refine ⟨hbodies, _, memory.store.shown q stream, hsound.selects_selected q stream,
    hsound.shows_shown q stream, fun direction limit => ?_, last_eq hsound named paired⟩
  intro asked directed
  have hpaired : asked.Paired := ⟨paired.time, paired.position⟩
  exact ⟨toList_eq hsound named hpaired rfl, count_eq hsound named hpaired rfl,
    events_eq hsound named hpaired rfl, event_eq hsound named hpaired rfl⟩

/-- Two notes are linked to their own stream again, one of them twice, while another stream is
written to. The query leaves the first place out, goes backward and stops after two. -/
theorem reads_what_is_asked_linked_again :
    let note (text : String) : Envelope OrderEvent := .fresh "agg" (.raw "Noted" text)
    let one := (countingSupply 0).eventId 0
    let two := (countingSupply 0).eventId 1
    let calls := [.append "s" [note "1", note "2", note "3"] none, .append "x" [note "4"] none,
      .link "s" [one, two, one] (some 3)]
    let q : ReadQuery := .ofSettings [.fromPosition 2, .toPosition 7]
    let asked : ReadQuery :=
      .ofSettings [.fromPosition 2, .toPosition 7, .stream "s", .direction .backward, .limit 2]
    let memory := (converse (access countingSupply) calls empty).2
    let log : Access OrderEvent (StateM Memory) := access countingSupply
    q.Paired ∧ ∃ shown : List (Envelope OrderEvent),
      shown.map Envelope.version = [some 2, some 3, some 4, some 5, some 6] ∧
      asked.toList log.query memory = (.ok (shown.reverse.take 2), memory) ∧
      asked.count log.count memory = (.ok 2, memory) ∧
      asked.events [two, two] log.query memory =
        (.ok ((shown.reverse.filter fun e => e.eventId = some two).take 2), memory) ∧
      (asked.event two log.query memory).1.map (Option.map Envelope.version) =
        .ok (some (some 5)) ∧
      q.last "s" log.query memory = (.ok shown.getLast?, memory) := by
  intro note one two calls q asked memory log
  have hpaired : q.Paired := ⟨nofun, by decide⟩
  obtain ⟨-, -, shown, -, -, hasked, hlast⟩ :=
    reads_what_is_asked countingSupply calls q (by decide : "s" ≠ "") hpaired
  obtain ⟨hforward, -⟩ := hasked .forward none
  obtain ⟨hlist, hcount, hevents, -⟩ := hasked .backward (some 2)
  have hshown : shown.map Envelope.version = [some 2, some 3, some 4, some 5, some 6] := by
    have hversions := congrArg (fun answer => answer.1.map (List.map Envelope.version)) hforward
    exact Except.ok.inj (hversions.symm.trans (by decide))
  have hlength : (upTo (some 2) (ReadDirection.backward.along shown)).length = 2 := by
    have hlength := congrArg List.length hshown
    rw [List.length_map] at hlength
    simp [upTo, ReadDirection.along, hlength]
  refine ⟨hpaired, shown, hshown, hlist, hlength ▸ hcount, ?_, by decide, hlast⟩
  have htwo := hevents [two, two]
  simp only [List.map_cons, List.map_nil, List.mem_cons, List.not_mem_nil, or_false, or_self]
    at htwo
  exact htwo

end Memory

end EventLog
