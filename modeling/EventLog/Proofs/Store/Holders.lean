/-
# Which streams hold an event

An event is stored once and may stand in many streams, and in each of them many times: links put
it there, its own stream included, and deletions take it out again. Three lookups and two reads
ask for one place among all of these. In one stream the places are told apart by their versions,
so a search from the front finds the lowest and one from the back the highest. In the whole store
they are told apart by their positions, which are given out once, so it does not matter in which
order the streams are searched.

Which stream answers is also said without any position. The streams that hold an event wait in a
queue (`holders`): a write that brings the event to a stream puts the stream at the end, unless it
is waiting already, a deletion takes it out, and the first of them is the answer. `Queued` is the
invariant, and what carries it is that a place that is given out lies behind all that are there.
-/

import EventLog.Proofs.Store.Places
import EventLog.Proofs.Store.Queries
import Mathlib.Order.Bounds.Basic

namespace EventLog

variable {ε : Type}

/-! ## Searching two lists -/

/-- Lists whose elements belong together are searched alike. -/
theorem rel_find? {α β : Type} {R : α → β → Prop} {p : α → Bool} {q : β → Bool} {l : List α}
    {m : List β} (h : List.Forall₂ R l m) (same : ∀ a b, R a b → p a = q b) :
    Option.Rel (fun a b => R a b ∧ p a = true) (l.find? p) (m.find? q) := by
  induction h with
  | nil => exact .none
  | @cons a b l m hab _ ih =>
      rw [List.find?_cons, List.find?_cons, ← same a b hab]
      cases hp : p a with
      | true => exact .some ⟨hab, hp⟩
      | false => exact ih

/-- The envelope shows this event at this version. -/
def Envelope.StandsAt (id : Uuid) (version : Int) (envelope : Envelope ε) : Prop :=
  envelope.eventId = some id ∧ envelope.version = some version

namespace Store

variable {s : Store} {id : Uuid} {stream : String}

/-! ## In one stream -/

/-- The versions at which an event stands in a stream. -/
def versionsOf (s : Store) (stream : String) (id : Uuid) : Set Int :=
  {version | ∃ a ∈ s.members stream, a.eventId = id ∧ a.version = version}

/-- The first place of an event in a stream that is searched in this direction. -/
def firstAlong (s : Store) (stream : String) (id : Uuid) (direction : ReadDirection) :
    Option Membership :=
  (direction.along (s.members stream)).find? fun a => a.eventId = id

theorem firstAlong_eq_some {direction : ReadDirection} {a : Membership}
    (h : s.firstAlong stream id direction = some a) : a ∈ s.members stream ∧ a.eventId = id := by
  have hid := List.find?_some h
  exact ⟨mem_along.mp (List.mem_of_find?_eq_some h), of_decide_eq_true hid⟩

theorem isSome_firstAlong (direction : ReadDirection) :
    (s.firstAlong stream id direction).isSome ↔ (s.versionsOf stream id).Nonempty := by
  rw [firstAlong, List.find?_isSome]
  constructor
  · rintro ⟨a, ha, hid⟩
    exact ⟨a.version, a, mem_along.mp ha, of_decide_eq_true hid, rfl⟩
  · rintro ⟨version, a, ha, hid, -⟩
    exact ⟨a, mem_along.mpr ha, decide_eq_true hid⟩

namespace Sound

variable (h : s.Sound)

include h

/-- Up the versions the lowest one is found first. -/
theorem isLeast_iff {version : Int} :
    IsLeast (s.versionsOf stream id) version ↔
      (s.firstAlong stream id .forward).map Membership.version = some version := by
  have hleast : ∀ {a}, s.firstAlong stream id .forward = some a →
      IsLeast (s.versionsOf stream id) a.version := by
    intro a ha
    refine ⟨⟨a, (firstAlong_eq_some ha).1, (firstAlong_eq_some ha).2, rfl⟩, ?_⟩
    rintro _ ⟨b, hb, hid, rfl⟩
    rcases eq_or_rel_of_find? (h.version_lt_of_pairwise stream) ha hb (decide_eq_true hid) with
      rfl | hlt
    · exact le_rfl
    · exact hlt.le
  constructor
  · intro hversion
    obtain ⟨a, ha⟩ := Option.isSome_iff_exists.mp
      ((isSome_firstAlong .forward).mpr ⟨version, hversion.1⟩)
    rw [ha, Option.map_some, hversion.unique (hleast ha)]
  · intro hfound
    obtain ⟨a, ha, rfl⟩ := Option.map_eq_some_iff.mp hfound
    exact hleast ha

/-- The version of an event in a stream is the greatest of its versions there. -/
theorem isGreatest_iff {version : Int} :
    IsGreatest (s.versionsOf stream id) version ↔ s.versionIn stream id = some version := by
  rw [h.versionIn_eq_some_iff]
  constructor
  · rintro ⟨⟨a, ha, hid, hversion⟩, hgreatest⟩
    exact ⟨a, ha, hid, hversion, fun b hb hb' => hgreatest ⟨b, hb, hb', rfl⟩⟩
  · rintro ⟨a, ha, hid, hversion, hgreatest⟩
    refine ⟨⟨a, ha, hid, hversion⟩, ?_⟩
    rintro _ ⟨b, hb, hb', rfl⟩
    exact hgreatest b hb hb'

/-- A query that only names a stream is about all of it. -/
theorem selected_of_unbounded {q : ReadQuery} (unbounded : ∀ position time, q.Bounds position time)
    (stream : String) : s.selected q stream = s.members stream := by
  refine List.filter_eq_self.mpr fun a ha => admitted_specOf_iff.mpr ⟨?_, rfl⟩
  obtain ⟨body, hbody⟩ := exists_body_of_hasEvent (h.stored stream a ha)
  exact ⟨body, hbody, unbounded _ _⟩

/-- Searching what is shown of a stream is searching its memberships. -/
theorem rel_firstAlong {q : ReadQuery} (unbounded : ∀ position time, q.Bounds position time)
    (direction : ReadDirection) :
    Option.Rel (Envelope.StandsAt id)
      ((s.firstAlong stream id direction).map Membership.version)
      ((direction.along (s.shown q stream : List (Envelope ε))).find?
        fun e => e.eventId = some id) := by
  have hshown : List.Forall₂ s.Shows (s.members stream) (s.shown q stream : List (Envelope ε)) := by
    rw [← h.selected_of_unbounded unbounded]
    exact h.shows_shown q stream
  have halong : List.Forall₂ s.Shows (direction.along (s.members stream))
      (direction.along (s.shown q stream : List (Envelope ε))) := by
    cases direction with
    | forward => exact hshown
    | backward => exact List.forall₂_reverse_iff.mpr hshown
  have hfound := rel_find? (p := fun a => a.eventId = id) (q := fun e => e.eventId = some id)
    halong (by
      rintro a _ ⟨body, -, rfl⟩
      simp [Envelope.stored])
  rw [firstAlong]
  generalize List.find? _ (direction.along (s.members stream)) = place at hfound ⊢
  generalize List.find? _ _ = found at hfound ⊢
  cases hfound with
  | none => exact .none
  | some hshows =>
      obtain ⟨⟨body, -, rfl⟩, hid⟩ := hshows
      exact .some ⟨congrArg some (of_decide_eq_true hid), rfl⟩

end Sound

/-! ## In the whole store -/

/-- An event stands in a stream. -/
def StandsIn (s : Store) (id : Uuid) (stream : String) : Prop :=
  ∃ a ∈ s.members stream, a.eventId = id

/-- An event came into one stream before all its places in the other one. -/
def Before (s : Store) (id : Uuid) (one other : String) : Prop :=
  ∃ a ∈ s.members one, a.eventId = id ∧
    ∀ b ∈ s.members other, b.eventId = id → a.position < b.position

/-- A stream holds the smallest position of an event in the whole store. -/
def FirstIn (s : Store) (id : Uuid) (stream : String) : Prop :=
  ∃ a ∈ s.members stream, a.eventId = id ∧
    ∀ other, ∀ b ∈ s.members other, b.eventId = id → a.position ≤ b.position

theorem streamOf_eq_none_iff : s.streamOf id = none ↔ ∀ stream, ¬ s.StandsIn id stream := by
  rw [streamOf, Option.map_eq_none_iff, earliest_eq_none_iff, List.eq_nil_iff_forall_not_mem]
  constructor
  · rintro h stream ⟨a, ha, hid⟩
    exact h (a.position, stream) (mem_placesOf.mpr ⟨a, ha, hid, rfl⟩)
  · rintro h ⟨position, stream⟩ hplace
    obtain ⟨a, ha, hid, -⟩ := mem_placesOf.mp hplace
    exact h stream ⟨a, ha, hid⟩

/-- The answer does not depend on the order in which the streams are searched. -/
theorem streamOf_of_perm (h : s.Sound) {order : Dictionary String (List Membership)}
    (hperm : order.entries.Perm s.streams.entries) :
    { s with streams := order }.streamOf id = s.streamOf id := by
  have hmembers : Store.members { s with streams := order } = s.members := by
    funext stream
    rw [members, members, Dictionary.get?_of_perm hperm]
  have hsound : Store.Sound { s with streams := order } := by
    refine ⟨?_, ?_, ?_, ?_, h.lastPosition_nonneg, ?_⟩
    all_goals rw [hmembers]
    exacts [h.versions, h.increasing, h.apart, h.positions, h.stored]
  refine Option.ext fun stream => ?_
  rw [hsound.streamOf_eq_some_iff, h.streamOf_eq_some_iff, hmembers]

theorem exists_mem_membersFrom {position current : Int} {ids : List Uuid} :
    (∃ a ∈ membersFrom position current ids, a.eventId = id) ↔ id ∈ ids := by
  constructor
  · rintro ⟨a, ha, rfl⟩
    exact (mem_membersFrom ha).2.2
  · intro hid
    obtain ⟨i, hi⟩ := List.mem_iff_getElem?.mp hid
    refine ⟨⟨position + i + 1, current + i + 1, id⟩, List.mem_of_getElem? (i := i) ?_, rfl⟩
    rw [getElem?_membersFrom, hi, Option.map_some]

theorem standsIn_extend {other : String} {current : Int} {ids : List Uuid} :
    (s.extend stream current ids).StandsIn id other ↔
      s.StandsIn id other ∨ stream = other ∧ id ∈ ids := by
  unfold StandsIn
  simp only [mem_members_extend, or_and_right, exists_or, and_assoc, exists_and_left,
    exists_mem_membersFrom]

theorem standsIn_without {other : String} :
    (s.without stream).StandsIn id other ↔ stream ≠ other ∧ s.StandsIn id other := by
  unfold StandsIn
  simp only [mem_members_without, and_assoc, exists_and_left]

namespace Sound

variable (h : s.Sound)

include h

/-- What is put into streams comes after what is there. -/
theorem position_lt {one : String} {a b : Membership} {current : Int} {ids : List Uuid}
    (ha : a ∈ s.members one) (hb : b ∈ membersFrom s.lastPosition current ids) :
    a.position < b.position :=
  (h.positions one a ha).2.trans_lt (mem_membersFrom hb).1

theorem before_extend {one other : String} (hbefore : s.Before id one other) (current : Int)
    (ids : List Uuid) : (s.extend stream current ids).Before id one other := by
  obtain ⟨a, ha, hid, hlt⟩ := hbefore
  refine ⟨a, mem_members_extend.mpr (.inl ha), hid, fun b hb hb' => ?_⟩
  rcases mem_members_extend.mp hb with hold | ⟨-, hnew⟩
  · exact hlt b hold hb'
  · exact h.position_lt ha hnew

/-- An event comes into a stream that does not hold it after every stream that does. -/
theorem before_extend_of_not_standsIn {one : String} (hone : s.StandsIn id one)
    (hnew : ¬ s.StandsIn id stream) (current : Int) (ids : List Uuid) :
    (s.extend stream current ids).Before id one stream := by
  obtain ⟨a, ha, hid⟩ := hone
  refine ⟨a, mem_members_extend.mpr (.inl ha), hid, fun b hb hb' => ?_⟩
  rcases mem_members_extend.mp hb with hold | ⟨-, hadded⟩
  · exact absurd ⟨b, hold, hb'⟩ hnew
  · exact h.position_lt ha hadded

end Sound

theorem Before.without {one other : String} (hbefore : s.Before id one other)
    (hne : stream ≠ one) : (s.without stream).Before id one other := by
  obtain ⟨a, ha, hid, hlt⟩ := hbefore
  exact ⟨a, mem_members_without.mpr ⟨hne, ha⟩, hid,
    fun b hb => hlt b (mem_members_without.mp hb).2⟩

end Store

/-! ## The queue -/

/-- Go to the end of a queue, unless already in it. -/
def joined (queue : List String) (stream : String) : List String :=
  if stream ∈ queue then queue else queue ++ [stream]

theorem mem_joined {queue : List String} {stream other : String} :
    other ∈ joined queue stream ↔ other ∈ queue ∨ stream = other := by
  unfold joined
  split
  · rename_i hmem
    exact (or_iff_left_of_imp fun heq => heq ▸ hmem).symm
  · rw [List.mem_append, List.mem_singleton, eq_comm (a := other)]

/-- The streams that hold an event, in the order in which it came in. -/
structure Queued (s : Store) (id : Uuid) (queue : List String) : Prop where
  mem_iff : ∀ stream, stream ∈ queue ↔ s.StandsIn id stream
  inOrder : queue.Pairwise (s.Before id)

namespace Queued

variable {s : Store} {id : Uuid} {queue : List String}

/-- Bodies have nothing to do with it. -/
theorem keep [EventType ε] (hqueue : Queued s id queue) (now : Timestamp)
    (staged : List (Staged ε)) : Queued (s.keep now staged) id queue :=
  ⟨hqueue.mem_iff, hqueue.inOrder⟩

theorem extend (hqueue : Queued s id queue) (h : s.Sound) (stream : String) (current : Int)
    (ids : List Uuid) :
    Queued (s.extend stream current ids) id (if id ∈ ids then joined queue stream else queue) := by
  have hkept : queue.Pairwise ((s.extend stream current ids).Before id) :=
    hqueue.inOrder.imp fun hbefore => h.before_extend hbefore current ids
  constructor
  · intro other
    rw [Store.standsIn_extend, ← hqueue.mem_iff]
    split
    · rename_i hid
      rw [mem_joined, and_iff_left hid]
    · rename_i hid
      rw [or_iff_left fun hnew => hid hnew.2]
  · unfold joined
    split
    · split
      · exact hkept
      · rename_i hnew
        refine List.pairwise_append.mpr
          ⟨hkept, List.pairwise_singleton _ _, fun one hone other hother => ?_⟩
        rw [List.mem_singleton.mp hother]
        rw [hqueue.mem_iff] at hone hnew
        exact h.before_extend_of_not_standsIn hone hnew current ids
    · exact hkept

theorem without (hqueue : Queued s id queue) (stream : String) :
    Queued (s.without stream) id (queue.filter (· ≠ stream)) := by
  constructor
  · intro other
    rw [Store.standsIn_without, ← hqueue.mem_iff, List.mem_filter, decide_eq_true_eq, and_comm,
      ne_comm]
  · refine (hqueue.inOrder.filter _).imp_of_mem fun hone _ hbefore => ?_
    exact hbefore.without (Ne.symm (of_decide_eq_true (List.mem_filter.mp hone).2))

/-- The first stream of the queue is where the event stands first. -/
theorem streamOf_eq_head? (hqueue : Queued s id queue) (h : s.Sound) :
    s.streamOf id = queue.head? := by
  cases hfound : s.streamOf id with
  | none =>
      have hnobody : queue = [] := List.eq_nil_iff_forall_not_mem.mpr fun stream hmem =>
        Store.streamOf_eq_none_iff.mp hfound stream ((hqueue.mem_iff stream).mp hmem)
      rw [hnobody]
      rfl
  | some stream =>
      obtain ⟨a, ha, hid, hleast⟩ := h.streamOf_eq_some_iff.mp hfound
      have hmem : stream ∈ queue := (hqueue.mem_iff stream).mpr ⟨a, ha, hid⟩
      cases queue with
      | nil => cases hmem
      | cons first rest =>
          rcases List.mem_cons.mp hmem with rfl | hlater
          · rfl
          · obtain ⟨b, hb, hb', hlt⟩ := (List.pairwise_cons.mp hqueue.inOrder).1 stream hlater
            have hle := hleast first b hb hb'
            exact absurd (hlt a ha hid) (not_lt.mpr hle)

end Queued

/-! ## Call by call -/

/-- The queue of an event after a call that was answered so. -/
def LogCall.queue (id : Uuid) (queue : List String) : LogCall ε → LogAnswer ε → List String
  | .append stream _ _, .stored (.ok returned) =>
    if some id ∈ returned.map Envelope.eventId then joined queue stream else queue
  | .link stream ids _, .version (.ok _) => if id ∈ ids then joined queue stream else queue
  | .delete stream, .done (.ok ()) => queue.filter (· ≠ stream)
  | _, _ => queue

/-- The queue of an event after some calls, one after another. -/
def holders {σ : Type} (log : Access ε (StateM σ)) (id : Uuid) :
    List (LogCall ε) → σ → List String → List String
  | [], _, queue => queue
  | call :: rest, state, queue =>
    let result := call.ask log state
    holders log id rest result.2 (call.queue id queue result.1)

theorem holders_append {σ : Type} (log : Access ε (StateM σ)) (id : Uuid)
    (first second : List (LogCall ε)) (state : σ) (queue : List String) :
    holders log id (first ++ second) state queue =
      holders log id second (converse log first state).2 (holders log id first state queue) := by
  induction first generalizing state queue with
  | nil => rfl
  | cons call rest ih => exact ih _ _

theorem Store.map_eventId_placed (s : Store) (stream : String) (staged : List (Staged ε)) :
    (s.placed stream staged).map Envelope.eventId = staged.map fun entry => some entry.eventId := by
  refine List.ext_getElem? fun i => ?_
  rw [List.getElem?_map, getElem?_placed, List.getElem?_map, Option.map_map]
  rfl

theorem Store.mem_map_eventId_placed {s : Store} {stream : String} {staged : List (Staged ε)}
    {id : Uuid} :
    some id ∈ (s.placed stream staged).map Envelope.eventId ↔ id ∈ staged.map Staged.eventId := by
  rw [map_eventId_placed, List.mem_map, List.mem_map]
  simp only [Option.some.injEq]

section InMemory

variable [EventType ε] (supply : Nat → Draw)

/-- A call keeps the queue of an event right. -/
theorem Queued.ask {memory : Memory} {id : Uuid} {queue : List String}
    (hqueue : Queued memory.store id queue) (h : memory.store.Sound) (call : LogCall ε) :
    let result := call.ask (Memory.access supply) memory
    Queued result.2.store id (call.queue id queue result.1) := by
  cases call with
  | append stream batch expected =>
      show Queued (memory.append supply stream batch expected).2.store id
        (LogCall.queue id queue (.append stream batch expected)
          (.stored (memory.append supply stream batch expected).1))
      rw [Memory.append]
      cases happend : memory.store.append (supply memory.drawn) stream batch expected with
      | error e => exact hqueue
      | ok result =>
          obtain ⟨returned, after⟩ := result
          obtain ⟨-, -, staged, -, rfl, rfl⟩ := Store.append_eq_ok_iff.mp happend
          simp only [LogCall.queue, Store.mem_map_eventId_placed]
          exact (hqueue.keep _ staged).extend (h.keep _ staged) stream _ _
  | link stream ids expected =>
      show Queued (Memory.write (fun store => store.link stream ids expected) memory).2.store id
        (LogCall.queue (ε := ε) id queue (.link stream ids expected)
          (.version (Memory.write (fun store => store.link stream ids expected) memory).1))
      rw [Memory.write]
      cases hlink : memory.store.link stream ids expected with
      | error e => exact hqueue
      | ok result =>
          obtain ⟨version, after⟩ := result
          obtain ⟨-, -, -, rfl, rfl⟩ := Store.link_eq_ok_iff.mp hlink
          exact hqueue.extend h stream _ ids
  | delete stream =>
      show Queued ((Memory.access (ε := ε) supply).delete stream memory).2.store id
        (LogCall.queue (ε := ε) id queue (.delete stream)
          (.done ((Memory.access (ε := ε) supply).delete stream memory).1))
      rw [Memory.delete_eq]
      by_cases hstream : stream = ""
      · rw [if_pos hstream]
        exact hqueue
      · rw [if_neg hstream]
        exact hqueue.without stream
  | hasEvent | streamOf | versionIn | inStream | lastVersion => exact hqueue

omit [EventType ε] in
theorem queued_empty (id : Uuid) : Queued Memory.empty.store id [] :=
  ⟨fun _ => ⟨nofun, fun ⟨_, ha, _⟩ => nomatch ha⟩, .nil⟩

theorem queued_holders {memory : Memory} {id : Uuid} {queue : List String}
    (hqueue : Queued memory.store id queue) (h : memory.store.Sound) (calls : List (LogCall ε)) :
    Queued (converse (Memory.access supply) calls memory).2.store id
      (holders (Memory.access supply) id calls memory queue) := by
  induction calls generalizing memory queue with
  | nil => exact hqueue
  | cons call rest ih =>
      exact ih (hqueue.ask supply h call) (h.effect (Memory.effect_ask supply memory call))

end InMemory

/-! ## Out of the queue -/

section Deletion

variable {stream : String} (id : Uuid)

/-- The first of a queue stays the first while it is not deleted. -/
theorem LogCall.queue_cons {call : LogCall ε} (spared : call ≠ .delete stream)
    (rest : List String) (answer : LogAnswer ε) :
    ∃ rest', call.queue id (stream :: rest) answer = stream :: rest' := by
  have hjoined : ∀ target, ∃ rest', joined (stream :: rest) target = stream :: rest' := by
    intro target
    unfold joined
    split
    · exact ⟨rest, rfl⟩
    · exact ⟨rest ++ [target], rfl⟩
  unfold LogCall.queue
  split
  · split
    · exact hjoined _
    · exact ⟨rest, rfl⟩
  · split
    · exact hjoined _
    · exact ⟨rest, rfl⟩
  · rename_i target
    have hne : stream ≠ target := fun heq => spared (heq ▸ rfl)
    exact ⟨_, List.filter_cons_of_pos (decide_eq_true hne)⟩
  · exact ⟨rest, rfl⟩

theorem holders_cons {σ : Type} (log : Access ε (StateM σ)) {calls : List (LogCall ε)}
    (spared : ∀ call ∈ calls, call ≠ .delete stream) (state : σ) (rest : List String) :
    ∃ rest', holders log id calls state (stream :: rest) = stream :: rest' := by
  induction calls generalizing state rest with
  | nil => exact ⟨rest, rfl⟩
  | cons call others ih =>
      obtain ⟨rest', hrest⟩ := call.queue_cons id (spared call List.mem_cons_self) rest
        (call.ask log state).1
      rw [holders, hrest]
      exact ih (fun other hother => spared other (List.mem_cons_of_mem _ hother)) _ _

/-- Two queues that differ in one stream only. -/
def SameBut (stream : String) (queue other : List String) : Prop :=
  queue.filter (· ≠ stream) = other.filter (· ≠ stream)

theorem SameBut.joined {queue other : List String} (h : SameBut stream queue other)
    (target : String) : SameBut stream (joined queue target) (joined other target) := by
  have hjoined : ∀ queue : List String, (EventLog.joined queue target).filter (· ≠ stream) =
      if target = stream then queue.filter (· ≠ stream)
      else EventLog.joined (queue.filter (· ≠ stream)) target := by
    intro queue
    unfold EventLog.joined
    by_cases heq : target = stream
    · subst heq
      by_cases hmem : target ∈ queue <;> simp [hmem]
    · by_cases hmem : target ∈ queue <;> simp [hmem, heq]
  rw [SameBut, hjoined, hjoined, h]

theorem SameBut.queue {queue other : List String} (h : SameBut stream queue other)
    (call : LogCall ε) (answer : LogAnswer ε) :
    SameBut stream (call.queue id queue answer) (call.queue id other answer) := by
  unfold LogCall.queue
  split
  · split
    · exact h.joined _
    · exact h
  · split
    · exact h.joined _
    · exact h
  · rw [SameBut, List.filter_comm, h, List.filter_comm]
  · exact h

/-- Once a stream has been deleted it does not matter whether it was in the queue before. -/
theorem holders_eq_of_deleted [EventType ε] (supply : Nat → Draw) (named : stream ≠ "")
    {calls : List (LogCall ε)} (deleted : .delete stream ∈ calls) (memory : Memory)
    {queue other : List String} (h : SameBut stream queue other) :
    holders (Memory.access supply) id calls memory queue =
      holders (Memory.access supply) id calls memory other := by
  induction calls generalizing memory queue other with
  | nil => cases deleted
  | cons call rest ih =>
      rw [holders, holders]
      rcases List.mem_cons.mp deleted with rfl | hlater
      · have hanswer : ((LogCall.delete stream).ask (Memory.access (ε := ε) supply) memory).1 =
            .done (.ok ()) := by
          show LogAnswer.done ((Memory.access (ε := ε) supply).delete stream memory).1 = _
          rw [Memory.delete_eq, if_neg named]
        rw [hanswer]
        exact congrArg (holders _ id rest _) h
      · exact ih hlater _ (h.queue id call _)

end Deletion

namespace Memory

variable [EventType ε] {supply : Nat → Draw} {memory : Memory} {stream : String} {id : Uuid}

/-! ## The lookups -/

/-- The first event that a read in this direction finds is shown at the first place in this
direction. -/
theorem rel_event (supply : Nat → Draw) (h : memory.store.Sound) (named : stream ≠ "")
    (id : Uuid) (direction : ReadDirection) :
    ∃ found : Option (Envelope ε),
      (ReadQuery.ofSettings [.stream stream, .direction direction]).event id
        (access (ε := ε) supply).query memory = (.ok found, memory) ∧
      Option.Rel (Envelope.StandsAt id)
        ((memory.store.firstAlong stream id direction).map Membership.version) found := by
  have hunbounded : ∀ position createdAt, (ReadQuery.ofSettings
      [.stream stream, .direction direction]).Bounds position createdAt := by
    intro position createdAt
    constructor <;> (intro _ hbound; cases hbound)
  exact ⟨_, event_eq h named ⟨fun h => absurd rfl h, fun h => absurd rfl h⟩ rfl id,
    h.rel_firstAlong hunbounded direction⟩

/-- What an append that was carried out returns are the events it has drawn. -/
theorem exists_staged_of_ask_append {batch returned : List (Envelope ε)} {expected : Option Int}
    (h : ((LogCall.append stream batch expected).ask (access supply) memory).1 =
      .stored (.ok returned)) :
    stream ≠ "" ∧ ∃ staged, Staged.ofEnvelopes (supply memory.drawn) 0 batch = .ok staged ∧
      returned = memory.store.placed stream staged := by
  have hanswer : (memory.append supply stream batch expected).1 = .ok returned :=
    LogAnswer.stored.inj h
  rw [append] at hanswer
  cases happend : memory.store.append (supply memory.drawn) stream batch expected with
  | error e =>
      rw [happend] at hanswer
      cases hanswer
  | ok result =>
      rw [happend] at hanswer
      obtain rfl : result.1 = returned := Except.ok.inj hanswer
      obtain ⟨hnamed, -, staged, hstaged, hplaced, -⟩ := Store.append_eq_ok_iff.mp happend
      exact ⟨hnamed, staged, hstaged, hplaced⟩

/-- An event that the log knows is not drawn again where draws are fresh. -/
theorem not_mem_returned {middle later : List (LogCall ε)} {batch returned : List (Envelope ε)}
    {expected : Option Int} (hknown : memory.store.hasEvent id = true)
    (fresh : FreshAlong supply (middle ++ .append stream batch expected :: later) memory)
    (h : ((LogCall.append stream batch expected).ask (access supply)
      (converse (access supply) middle memory).2).1 = .stored (.ok returned)) :
    some id ∉ returned.map Envelope.eventId := by
  induction middle generalizing memory with
  | nil =>
      obtain ⟨-, staged, hstaged, rfl⟩ := exists_staged_of_ask_append h
      rw [Store.mem_map_eventId_placed]
      intro hdrawn
      have hunknown := (Store.accepts_of_freshFor fresh.1 hstaged).unknown id hdrawn
      rw [hknown] at hunknown
      cases hunknown
  | cons call rest ih =>
      exact ih ((effect_ask supply memory call).hasEvent hknown) fresh.2 h

/-- What is asked of one stream. -/
theorem lookups_in_stream (h : memory.store.Sound) (named : stream ≠ "") (id : Uuid) :
    let log := access (ε := ε) supply
    ∃ (lowest highest : Option Int) (first last : Option (Envelope ε)),
      (∀ version, lowest = some version ↔
        IsLeast (memory.store.versionsOf stream id) version) ∧
      (∀ version, highest = some version ↔
        IsGreatest (memory.store.versionsOf stream id) version) ∧
      (lowest.isSome ↔ memory.store.StandsIn id stream) ∧
      (highest.isSome ↔ memory.store.StandsIn id stream) ∧
      log.versionIn stream id memory = (.ok highest, memory) ∧
      log.inStream stream id memory = (.ok highest.isSome, memory) ∧
      (ReadQuery.ofSettings [.stream stream]).event id log.query memory = (.ok first, memory) ∧
      (ReadQuery.ofSettings [.stream stream, .direction .backward]).event id log.query memory =
        (.ok last, memory) ∧
      Option.Rel (Envelope.StandsAt id) lowest first ∧
      Option.Rel (Envelope.StandsAt id) highest last := by
  intro log
  have hisSome : ∀ direction, ((memory.store.firstAlong stream id direction).map
      Membership.version).isSome ↔ memory.store.StandsIn id stream := by
    intro direction
    rw [Option.isSome_map, Store.isSome_firstAlong]
    exact ⟨fun ⟨_, a, ha, hid, _⟩ => ⟨a, ha, hid⟩, fun ⟨a, ha, hid⟩ => ⟨_, a, ha, hid, rfl⟩⟩
  obtain ⟨first, hforward, hfirst⟩ := rel_event (ε := ε) supply h named id .forward
  obtain ⟨last, hbackward, hlast⟩ := rel_event (ε := ε) supply h named id .backward
  exact ⟨_, _, first, last, fun _ => h.isLeast_iff.symm, fun _ => h.isGreatest_iff.symm,
    hisSome .forward, hisSome .backward, rfl, rfl, hforward, hbackward, hfirst, hlast⟩

/-- What is asked of the whole store. -/
theorem streamOf_queued {queue : List String} (h : memory.store.Sound)
    (hqueue : Queued memory.store id queue) :
    let found := queue.head?
    (access (ε := ε) supply).streamOf id memory = (.ok found, memory) ∧
      (∀ stream, found = some stream ↔ memory.store.FirstIn id stream) ∧
      (found = none ↔ ∀ stream, ¬ memory.store.StandsIn id stream) ∧
      ∀ order : Dictionary String (List Membership),
        order.entries.Perm memory.store.streams.entries →
        { memory.store with streams := order }.streamOf id = found := by
  intro found
  have hfound : memory.store.streamOf id = found := hqueue.streamOf_eq_head? h
  refine ⟨?_, fun stream => ?_, ?_, fun order hperm => ?_⟩
  · exact congrArg (fun found => (Except.ok found, memory)) hfound
  · rw [← hfound, h.streamOf_eq_some_iff]
    exact Iff.rfl
  · rw [← hfound, Store.streamOf_eq_none_iff]
  · rw [← hfound, Store.streamOf_of_perm h hperm]

section Appended

variable {before : List (LogCall ε)} {origin : String} {batch returned : List (Envelope ε)}
  {expected : Option Int}
  (hstored : ((LogCall.append origin batch expected).ask (access supply)
    (converse (access supply) before .empty).2).1 = .stored (.ok returned))
  (hreturned : some id ∈ returned.map Envelope.eventId)
  (hnew : ∀ stream, ¬ (converse (access supply) before .empty).2.store.StandsIn id stream)

include hstored hreturned hnew

/-- From its append on the queue of an event starts with the stream it was appended to. -/
theorem holders_of_append {after : List (LogCall ε)} :
    holders (access supply) id (before ++ .append origin batch expected :: after) .empty [] =
      holders (access supply) id after ((LogCall.append origin batch expected).ask (access supply)
        (converse (access supply) before .empty).2).2 [origin] := by
  have hqueue := queued_holders supply (queued_empty id) sound_empty before
  have hnone : holders (access supply) id before .empty [] = [] :=
    List.eq_nil_iff_forall_not_mem.mpr fun stream hmem =>
      hnew stream ((hqueue.mem_iff stream).mp hmem)
  rw [holders_append, hnone, holders, hstored, LogCall.queue, if_pos hreturned]
  rfl

/-- An event that has been returned by its append is known from then on. -/
theorem hasEvent_of_returned :
    ((LogCall.append origin batch expected).ask (access supply)
      (converse (access supply) before .empty).2).2.store.hasEvent id = true := by
  have hqueue := queued_holders supply (queued_empty id) sound_empty
    (before ++ [.append origin batch expected])
  have hsound := sound_converse supply sound_empty (before ++ [.append origin batch expected])
  rw [holders_of_append hstored hreturned hnew] at hqueue
  rw [converse_append] at hqueue hsound
  obtain ⟨a, ha, rfl⟩ := (hqueue.mem_iff origin).mp List.mem_cons_self
  exact hsound.stored origin a ha

end Appended

/-- Take any calls on an empty log.

In a stream the answers about an event are about the least and the greatest of the versions at
which it stands there: the version asked for is the greatest, and the query for the event shows
it at the greatest version if it goes backward and at the least one if it goes forward. All of
them find nothing where the event does not stand in the stream, and only there.

In the whole log the stream asked for holds the smallest position of the event, whatever the order
in which the streams are searched; none is found where no stream holds the event. It is the first
in the queue of the streams that hold it.

So from the append of an event on, while the stream it was appended to is not deleted, that stream
is found whatever else is put to the log. Once it has been deleted the answer is the first of the
streams that the calls since the append have brought the event to and have not taken out again;
where draws are fresh these calls are links. -/
theorem point_lookups_agree (supply : Nat → Draw) (calls : List (LogCall ε)) :
    let log := access (ε := ε) supply
    let memory := (converse log calls .empty).2
    (∀ stream id, stream ≠ "" →
      ∃ (lowest highest : Option Int) (first last : Option (Envelope ε)),
        (∀ version, lowest = some version ↔
          IsLeast (memory.store.versionsOf stream id) version) ∧
        (∀ version, highest = some version ↔
          IsGreatest (memory.store.versionsOf stream id) version) ∧
        (lowest.isSome ↔ memory.store.StandsIn id stream) ∧
        (highest.isSome ↔ memory.store.StandsIn id stream) ∧
        log.versionIn stream id memory = (.ok highest, memory) ∧
        log.inStream stream id memory = (.ok highest.isSome, memory) ∧
        (ReadQuery.ofSettings [.stream stream]).event id log.query memory = (.ok first, memory) ∧
        (ReadQuery.ofSettings [.stream stream, .direction .backward]).event id log.query memory =
          (.ok last, memory) ∧
        Option.Rel (Envelope.StandsAt id) lowest first ∧
        Option.Rel (Envelope.StandsAt id) highest last) ∧
    (∀ id,
      let queue := holders log id calls .empty []
      (∀ stream, stream ∈ queue ↔ memory.store.StandsIn id stream) ∧
      log.streamOf id memory = (.ok queue.head?, memory) ∧
      (∀ stream, queue.head? = some stream ↔ memory.store.FirstIn id stream) ∧
      (queue.head? = none ↔ ∀ stream, ¬ memory.store.StandsIn id stream) ∧
      ∀ order : Dictionary String (List Membership),
        order.entries.Perm memory.store.streams.entries →
        { memory.store with streams := order }.streamOf id = queue.head?) ∧
    ∀ before origin batch expected after returned id,
      calls = before ++ .append origin batch expected :: after →
      let earlier := (converse log before .empty).2
      let stored := (LogCall.append origin batch expected).ask log earlier
      stored.1 = .stored (.ok returned) → some id ∈ returned.map Envelope.eventId →
      (∀ stream, ¬ earlier.store.StandsIn id stream) →
      ((∀ call ∈ after, call ≠ .delete origin) →
        log.streamOf id memory = (.ok (some origin), memory)) ∧
      (.delete origin ∈ after →
        log.streamOf id memory = (.ok (holders log id after stored.2 []).head?, memory)) ∧
      (FreshAlong supply after stored.2 → ∀ middle target more expected' later returned',
        after = middle ++ .append target more expected' :: later →
        ((LogCall.append target more expected').ask log (converse log middle stored.2).2).1 =
          .stored (.ok returned') →
        some id ∉ returned'.map Envelope.eventId) := by
  intro log memory
  have hsound : memory.store.Sound := sound_converse supply sound_empty calls
  have hqueue : ∀ id, Queued memory.store id (holders log id calls .empty []) :=
    fun id => queued_holders supply (queued_empty id) sound_empty calls
  have hstreamOf : ∀ id, log.streamOf id memory =
      (.ok (holders log id calls .empty []).head?, memory) :=
    fun id => (streamOf_queued hsound (hqueue id)).1
  refine ⟨fun stream id named => lookups_in_stream hsound named id,
    fun id => ⟨(hqueue id).mem_iff, streamOf_queued hsound (hqueue id)⟩, ?_⟩
  intro before origin batch expected after returned id hcalls earlier stored hstored hreturned hnew
  have hholders : holders log id calls .empty [] = holders log id after stored.2 [origin] := by
    rw [hcalls]
    exact holders_of_append hstored hreturned hnew
  refine ⟨fun spared => ?_, fun hdeleted => ?_, fun fresh middle target more expected' later
    returned' hafter hanswer => ?_⟩
  · obtain ⟨rest, hrest⟩ := holders_cons id log spared stored.2 []
    rw [hstreamOf, hholders, hrest]
    rfl
  · obtain ⟨hnamed, -⟩ := exists_staged_of_ask_append hstored
    have hsame : SameBut origin [origin] [] := by simp [SameBut]
    rw [hstreamOf, hholders, holders_eq_of_deleted id supply hnamed hdeleted stored.2 hsame]
  · have hknown := hasEvent_of_returned hstored hreturned hnew
    exact not_mem_returned hknown (hafter ▸ fresh) hanswer

/-- An event is linked into its own stream and into two others, one of which is deleted and linked
to again, and then its own stream is deleted. -/
theorem point_lookups_agree_links :
    let note : Envelope OrderEvent := .fresh "order-1" (.raw "Note" "1")
    let id := (countingSupply 0).eventId 0
    let log := access (ε := OrderEvent) countingSupply
    let links : List (LogCall OrderEvent) :=
      [.link "a" [id] none, .link "o" [id] none, .delete "a", .link "b" [id] none,
        .link "a" [id] (some 0)]
    let held := (converse log (.append "o" [note] none :: links) .empty).2
    let bereft := (converse log (.append "o" [note] none :: links ++ [.delete "o"]) .empty).2
    log.streamOf id held = (.ok (some "o"), held) ∧
      log.versionIn "o" id held = (.ok (some 2), held) ∧
      (∃ first, first.StandsAt id 1 ∧
        (ReadQuery.ofSettings [.stream "o"]).event id log.query held = (.ok (some first), held)) ∧
      log.streamOf id bereft = (.ok (some "b"), bereft) ∧
      log.inStream "o" id bereft = (.ok false, bereft) := by
  intro note id log links held bereft
  obtain ⟨hone, -, happended⟩ :=
    point_lookups_agree countingSupply (.append "o" [note] none :: links)
  obtain ⟨-, -, hdeleted⟩ :=
    point_lookups_agree countingSupply (.append "o" [note] none :: links ++ [.delete "o"])
  have hnobody : ∀ stream, ¬ Memory.empty.store.StandsIn id stream :=
    fun _ ⟨_, ha, _⟩ => nomatch ha
  obtain ⟨hspared, -⟩ := happended [] "o" [note] none links _ id rfl rfl (by decide) hnobody
  obtain ⟨-, hgone, -⟩ :=
    hdeleted [] "o" [note] none (links ++ [.delete "o"]) _ id rfl rfl (by decide) hnobody
  obtain ⟨lowest, _, first, _, hleast, -, -, -, -, -, hforward, -, hfirst, -⟩ :=
    hone "o" id (by decide)
  have hlowest : lowest = some 1 := by
    refine (hleast 1).mpr ⟨⟨⟨1, 1, id⟩, by decide, rfl, rfl⟩, ?_⟩
    rintro _ ⟨a, ha, -, rfl⟩
    have hall : ∀ a ∈ held.store.members "o", 1 ≤ a.version := by decide
    exact hall a ha
  rw [hlowest] at hfirst
  cases hfirst with
  | some hstands =>
      exact ⟨hspared (by simp [links]), rfl, ⟨_, hstands, hforward⟩,
        (hgone (by simp [links])).trans rfl, rfl⟩

end Memory

end EventLog
