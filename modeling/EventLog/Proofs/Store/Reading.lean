/-
# What a whole stream reads as

The unfiltered forward read of a stream is its memberships, each with the body behind it
(`Store.read_eq`). Writes are followed through this one equation: what is put at the end of
a stream is put at the end of its read, and as long as identifiers are drawn afresh nothing
that could be read before reads differently afterwards.
-/

import EventLog.Proofs.Store.Numbering

namespace EventLog

variable {ε : Type}

namespace ReadSpec

theorem mem_directed {α : Type} {spec : ReadSpec} {members : List α} {a : α} :
    a ∈ spec.directed members ↔ a ∈ members := by
  unfold directed
  cases spec.direction with
  | forward => rfl
  | backward => exact List.mem_reverse

theorem map_limited {α β : Type} (spec : ReadSpec) (f : α → β) (members : List α) :
    (spec.limited members).map f = spec.limited (members.map f) := by
  unfold limited
  cases spec.limit with
  | none => rfl
  | some k => exact List.map_take

theorem mem_of_mem_limited {α : Type} {spec : ReadSpec} {members : List α} {a : α}
    (h : a ∈ spec.limited members) : a ∈ members := by
  unfold limited at h
  cases hlimit : spec.limit with
  | none => rwa [hlimit] at h
  | some k =>
      rw [hlimit] at h
      exact List.mem_of_mem_take h

end ReadSpec

namespace Store

/-- Only memberships of its stream match a read. -/
theorem mem_members_of_mem_matching {s : Store} {spec : ReadSpec} {member : Membership}
    (h : member ∈ s.matching spec) : member ∈ s.members spec.stream :=
  ReadSpec.mem_directed.mp (List.mem_filter.mp (ReadSpec.mem_of_mem_limited h)).1

/-- A stream reads as its memberships with their bodies. -/
theorem read_eq (s : Store) (stream : String) :
    (s.read stream : List (Envelope ε)) = (s.members stream).filterMap s.envelope? := by
  unfold read query matching
  rw [ReadSpec.limited_whole, ReadSpec.directed_whole, List.filterMap_filter]
  apply List.filterMap_congr
  intro member _
  unfold admitted envelope?
  cases s.events.get? member.eventId <;> simp

theorem envelope?_eq_some {s : Store} {member : Membership} {body : StoredEvent}
    (h : s.events.get? member.eventId = some body) :
    (s.envelope? member : Option (Envelope ε)) = some (.stored member.eventId member.version
      member.position body.headers (.raw body.name body.payload)) := by
  rw [envelope?, h]
  rfl

theorem exists_body_of_hasEvent {s : Store} {id : Uuid} (h : s.hasEvent id = true) :
    ∃ body, s.events.get? id = some body :=
  Option.isSome_iff_exists.mp h

/-- A list none of whose members is passed over keeps its places. -/
theorem getElem?_filterMap_of_isSome {α β : Type} {f : α → Option β} {members : List α}
    (h : ∀ a ∈ members, (f a).isSome) :
    (members.filterMap f).length = members.length ∧
      ∀ i : Nat, (members.filterMap f)[i]? = members[i]?.bind f := by
  induction members with
  | nil => exact ⟨rfl, fun _ => rfl⟩
  | cons a rest ih =>
      obtain ⟨b, hb⟩ := Option.isSome_iff_exists.mp (h a List.mem_cons_self)
      obtain ⟨hlength, hplaces⟩ := ih fun other hother => h other (List.mem_cons_of_mem _ hother)
      rw [List.filterMap_cons_some hb, List.length_cons, List.length_cons, hlength]
      refine ⟨rfl, fun i => ?_⟩
      cases i with
      | zero => exact hb.symm
      | succ i => exact hplaces i

/-- A membership with a body behind it reads as something. -/
theorem isSome_envelope? {s : Store} {member : Membership}
    (h : s.hasEvent member.eventId = true) :
    (s.envelope? member : Option (Envelope ε)).isSome := by
  obtain ⟨body, hbody⟩ := exists_body_of_hasEvent h
  rw [envelope?_eq_some hbody]
  rfl

/-- Nothing of a sound store's streams is passed over when they are read. -/
theorem Sound.length_read {s : Store} (h : s.Sound) (stream : String) :
    (s.read stream : List (Envelope ε)).length = (s.members stream).length := by
  rw [read_eq]
  exact (getElem?_filterMap_of_isSome fun member hmember =>
    isSome_envelope? (h.stored stream member hmember)).1

/-- A link changes the read of its stream at the end and no other read. -/
theorem read_extend (s : Store) (stream other : String) (current : Int) (ids : List Uuid) :
    ((s.extend stream current ids).read other : List (Envelope ε)) =
      if stream = other then s.read stream ++
        (membersFrom s.lastPosition current ids).filterMap s.envelope?
      else s.read other := by
  have henvelope : ((s.extend stream current ids).envelope? : Membership → Option (Envelope ε)) =
      s.envelope? := rfl
  rw [read_eq, members_extend, henvelope]
  by_cases h : stream = other
  · rw [if_pos h, if_pos h, List.filterMap_append, read_eq]
  · rw [if_neg h, if_neg h, read_eq]

/-! ## Fresh identifiers -/

variable [EventType ε]

/-- The identifiers of a prepared batch are new to the store and differ from each other. -/
structure Accepts (s : Store) (staged : List (Staged ε)) : Prop where
  unknown : ∀ id ∈ staged.map Staged.eventId, s.hasEvent id = false
  distinct : (staged.map Staged.eventId).Nodup

/-- A fresh draw prepares batches the store accepts. -/
theorem accepts_of_freshFor {s : Store} {draw : Draw} {batch : List (Envelope ε)}
    {staged : List (Staged ε)} (fresh : draw.FreshFor s batch.length)
    (h : Staged.ofEnvelopes draw 0 batch = .ok staged) : s.Accepts staged := by
  have hids := Staged.map_eventId_of_ofEnvelopes h
  rw [← List.range_eq_range'] at hids
  constructor
  · intro id hid
    rw [hids, List.mem_map] at hid
    obtain ⟨i, hi, rfl⟩ := hid
    exact fresh.unknown i (List.mem_range.mp hi)
  · rw [hids]
    refine List.Nodup.map_on ?_ List.nodup_range
    intro i hi j hj heq
    exact fresh.distinct i (List.mem_range.mp hi) j (List.mem_range.mp hj) heq

namespace Accepts

variable {s : Store} {staged : List (Staged ε)} (h : s.Accepts staged)

include h

/-- Bodies that were there stay as they were. -/
theorem get?_keep {id : Uuid} (hid : s.hasEvent id = true) (now : Timestamp) :
    (s.keep now staged).events.get? id = s.events.get? id := by
  apply get?_keep_of_not_mem
  intro hmem
  rw [h.unknown id hmem] at hid
  cases hid

theorem read_keep (hsound : s.Sound) (now : Timestamp) (stream : String) :
    ((s.keep now staged).read stream : List (Envelope ε)) = s.read stream := by
  rw [read_eq, read_eq, members_keep]
  apply List.filterMap_congr
  intro member hmember
  unfold envelope?
  rw [h.get?_keep (hsound.stored stream member hmember)]

end Accepts

end Store

variable [EventType ε]

/-- A prepared event as it reads once it stands at a place. -/
def Staged.readAt (entry : Staged ε) (place : Membership) : Envelope ε :=
  .stored entry.eventId place.version place.position entry.envelope.headers
    (.raw entry.envelope.eventName entry.payload)

namespace Store

/-- The memberships of kept bodies read as these. -/
theorem filterMap_envelope?_membersFrom {s : Store} {now : Timestamp}
    {entries : List (Staged ε)}
    (kept : ∀ entry ∈ entries, s.events.get? entry.eventId = some (entry.body now))
    (position current : Int) :
    (membersFrom position current (entries.map Staged.eventId)).filterMap s.envelope? =
      List.zipWith Staged.readAt entries
        (membersFrom position current (entries.map Staged.eventId)) := by
  induction entries generalizing position current with
  | nil => rfl
  | cons entry rest ih =>
      have hbody := kept entry List.mem_cons_self
      rw [List.map_cons, membersFrom, List.filterMap_cons_some (envelope?_eq_some hbody),
        List.zipWith_cons_cons, ih fun other hother => kept other (List.mem_cons_of_mem _ hother)]
      rfl

/-- After an append the stream reads as before, and then come the prepared events. -/
theorem read_grown {s : Store} {staged : List (Staged ε)} (h : s.Accepts staged)
    (hsound : s.Sound) (now : Timestamp) (stream : String) :
    (s.grown now stream staged).read stream = s.read stream ++
      List.zipWith Staged.readAt staged
        (membersFrom s.lastPosition (s.lastVersion stream) (staged.map Staged.eventId)) := by
  have hkept : ∀ entry ∈ staged,
      (s.keep now staged).events.get? entry.eventId = some (entry.body now) :=
    fun entry hentry => get?_keep_of_mem h.distinct hentry
  rw [grown, read_extend, if_pos rfl, h.read_keep hsound, lastPosition_keep,
    filterMap_envelope?_membersFrom hkept]

end Store

/-! ## What a call keeps -/

omit [EventType ε] in
/-- Putting events at the end of one stream takes nothing from any. -/
theorem Store.members_grows_extend (s : Store) (stream other : String) (current : Int)
    (ids : List Uuid) : s.members other <+: (s.extend stream current ids).members other := by
  by_cases heq : stream = other
  · rw [members_extend, if_pos heq, heq]
    exact List.prefix_append _ _
  · have hsame : (s.extend stream current ids).members other = s.members other :=
      (s.members_extend stream other current ids).trans (if_neg heq)
    exact hsame ▸ List.prefix_rfl

/-- The call is one that writes to this stream. -/
def LogCall.Writes (stream : String) : LogCall ε → Prop
  | append target _ _ => target = stream
  | link target _ _ => target = stream
  | delete target => target = stream
  | _ => False

omit [EventType ε] in
/-- A call writes to one stream at most. -/
theorem LogCall.Writes.unique {call : LogCall ε} {stream other : String}
    (h : call.Writes stream) (hother : call.Writes other) : stream = other := by
  cases call with
  | append => exact h.symm.trans hother
  | link => exact h.symm.trans hother
  | delete => exact h.symm.trans hother
  | _ => exact h.elim

namespace LogCall.Effect

variable {draw : Draw} {s after : Store} {call : LogCall ε}

/-- A call that does not write to a stream leaves it as it is. -/
theorem members_eq (h : call.Effect draw s after) {stream : String}
    (hothers : ¬ call.Writes stream) : after.members stream = s.members stream := by
  cases h with
  | unchanged => rfl
  | appended => exact (Store.members_grown _ _ _ _ _).trans (if_neg hothers)
  | linked => exact (Store.members_extend _ _ _ _ _).trans (if_neg hothers)
  | deleted => exact (Store.members_without _ _ _).trans (if_neg hothers)

/-- A call that spares a stream does nothing to it but add to it. -/
theorem members_grows (h : call.Effect draw s after) {stream : String}
    (spared : call ≠ .delete stream) : s.members stream <+: after.members stream := by
  cases h with
  | unchanged => exact List.prefix_rfl
  | appended => exact (s.keep _ _).members_grows_extend _ _ _ _
  | linked => exact s.members_grows_extend _ _ _ _
  | @deleted deleted =>
      have hne : deleted ≠ stream := by
        rintro rfl
        exact spared rfl
      have hsame : (s.without deleted).members stream = s.members stream :=
        (s.members_without deleted stream).trans (if_neg hne)
      exact hsame ▸ List.prefix_rfl

/-- No call puts anything into a stream without a name. -/
theorem members_unnamed (h : call.Effect draw s after) (hs : s.members "" = []) :
    after.members "" = [] := by
  cases h with
  | unchanged => exact hs
  | appended named => rw [Store.members_grown, if_neg named, hs]
  | linked named => rw [Store.members_extend, if_neg named, hs]
  | deleted named => rw [Store.members_without, if_neg named, hs]

/-- The bodies that a store has stay as they are while identifiers are drawn afresh. -/
theorem get?_events (h : call.Effect draw s after) (fresh : draw.FreshFor s call.drawn)
    {id : Uuid} (hid : s.hasEvent id = true) : after.events.get? id = s.events.get? id := by
  cases h with
  | unchanged => rfl
  | appended _ prepared => exact (Store.accepts_of_freshFor fresh prepared).get?_keep hid _
  | linked => rfl
  | deleted => rfl

end LogCall.Effect

end EventLog
