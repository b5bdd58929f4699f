/-
# How memberships are numbered

Every read of the store, and every version check, trusts its numbering: a stream holds the
versions 1, 2, … in order and nothing else, positions belong to one membership each and
only grow, and there is a body behind every membership. `Store.Sound` says so of a store.
It survives every call, with any arguments and whether the call succeeds or not, and also
when identifiers are drawn twice: a body may then be replaced, but none goes missing.

Soundness speaks of one moment. That a position is never given out again once its
membership has been deleted speaks of two, and rests on the last position alone, which no
call moves back (`numbering_of_converse`).
-/

import EventLog.Proofs.Store.Writes
import Mathlib.Data.List.Nodup

namespace EventLog

variable {ε : Type} [EventType ε]

namespace Store

structure Sound (s : Store) : Prop where
  /-- The versions of a stream are 1, 2, … in order. -/
  versions : ∀ stream, (s.members stream).map Membership.version =
    (List.range (s.members stream).length).map fun i : Nat => (i : Int) + 1
  increasing : ∀ stream, (s.members stream).Pairwise fun a b => a.position < b.position
  /-- A position belongs to one membership of the whole store. -/
  apart : ∀ stream other, ∀ a ∈ s.members stream, ∀ b ∈ s.members other,
    a.position = b.position → stream = other ∧ a = b
  positions : ∀ stream, ∀ a ∈ s.members stream, 1 ≤ a.position ∧ a.position ≤ s.lastPosition
  lastPosition_nonneg : 0 ≤ s.lastPosition
  stored : ∀ stream, ∀ a ∈ s.members stream, s.hasEvent a.eventId = true

/-! ## The memberships of one batch -/

theorem map_version_membersFrom (position current : Int) (ids : List Uuid) :
    (membersFrom position current ids).map Membership.version =
      (List.range ids.length).map fun i : Nat => current + i + 1 := by
  apply List.ext_getElem?
  intro i
  rw [List.getElem?_map, getElem?_membersFrom, List.getElem?_map]
  by_cases h : i < ids.length
  · simp [h]
  · simp [h]

theorem mem_membersFrom {position current : Int} {ids : List Uuid} {a : Membership}
    (h : a ∈ membersFrom position current ids) :
    position < a.position ∧ a.position ≤ position + ids.length ∧ a.eventId ∈ ids := by
  obtain ⟨i, hi⟩ := List.mem_iff_getElem?.mp h
  rw [getElem?_membersFrom, Option.map_eq_some_iff] at hi
  obtain ⟨id, hid, rfl⟩ := hi
  have hlt : i < ids.length := (List.getElem?_eq_some_iff.mp hid).1
  exact ⟨by dsimp only; omega, by dsimp only; omega, List.mem_of_getElem? hid⟩

theorem pairwise_membersFrom (position current : Int) (ids : List Uuid) :
    (membersFrom position current ids).Pairwise fun a b => a.position < b.position := by
  induction ids generalizing position current with
  | nil => exact .nil
  | cons id rest ih =>
      rw [membersFrom, List.pairwise_cons]
      exact ⟨fun a ha => (mem_membersFrom ha).1, ih _ _⟩

/-- Where positions increase, a position belongs to one membership. -/
theorem eq_of_position_eq {members : List Membership}
    (increasing : members.Pairwise fun a b => a.position < b.position) {a b : Membership}
    (ha : a ∈ members) (hb : b ∈ members) (heq : a.position = b.position) : a = b := by
  have hnodup : (members.map Membership.position).Nodup :=
    List.pairwise_map.mpr (increasing.imp fun hlt => Int.ne_of_lt hlt)
  exact List.inj_on_of_nodup_map hnodup ha hb heq

/-! ## What soundness says of one stream -/

namespace Sound

variable {s : Store}

theorem empty : Store.empty.Sound where
  versions _ := rfl
  increasing _ := .nil
  apart _ _ a ha := by cases ha
  positions _ a ha := by cases ha
  lastPosition_nonneg := Int.le_refl 0
  stored _ a ha := by cases ha

/-- The version at each place of a stream. -/
theorem version_of_getElem? (h : s.Sound) {stream : String} {i : Nat} {a : Membership}
    (ha : (s.members stream)[i]? = some a) : a.version = i + 1 := by
  have hversions := congrArg (fun versions => versions[i]?) (h.versions stream)
  have hlt : i < (s.members stream).length := (List.getElem?_eq_some_iff.mp ha).1
  rw [List.getElem?_map, ha, List.getElem?_map, List.getElem?_range hlt] at hversions
  exact Option.some.inj hversions

/-- Up a stream the versions increase. -/
theorem version_lt_of_pairwise (h : s.Sound) (stream : String) :
    (s.members stream).Pairwise fun a b => a.version < b.version := by
  have hversions : ((s.members stream).map Membership.version).Pairwise (· < ·) := by
    rw [h.versions stream, List.pairwise_map]
    exact List.pairwise_lt_range.imp fun hlt => by omega
  exact List.pairwise_map.mp hversions

/-- The last version of a stream is the number of its memberships. -/
theorem lastVersion_eq (h : s.Sound) (stream : String) :
    s.lastVersion stream = (s.members stream).length := by
  unfold lastVersion
  cases hlast : (s.members stream).getLast? with
  | none => simp [List.getLast?_eq_none_iff.mp hlast]
  | some a =>
      rw [List.getLast?_eq_getElem?] at hlast
      have hversion := h.version_of_getElem? hlast
      have hlt := (List.getElem?_eq_some_iff.mp hlast).1
      dsimp only
      omega

/-! ## What every call keeps -/

theorem keep (h : s.Sound) (now : Timestamp) (staged : List (Staged ε)) :
    (s.keep now staged).Sound where
  versions := h.versions
  increasing := h.increasing
  apart := h.apart
  positions := h.positions
  lastPosition_nonneg := h.lastPosition_nonneg
  stored stream a ha := hasEvent_keep.mpr (.inr (h.stored stream a ha))

/-- Stored events may be put at the end of a stream, each as often as wanted. -/
theorem extend (h : s.Sound) (stream : String) {ids : List Uuid}
    (known : ∀ id ∈ ids, s.hasEvent id = true) :
    (s.extend stream (s.lastVersion stream) ids).Sound := by
  refine ⟨?versions, ?increasing, ?apart, ?positions, ?nonneg, ?stored⟩
  case versions =>
    intro other
    rw [members_extend]
    by_cases heq : stream = other
    · rw [if_pos heq, List.map_append, h.versions stream, map_version_membersFrom,
        h.lastVersion_eq, List.length_append, length_membersFrom, List.range_add,
        List.map_append, List.map_map]
      congr 1
    · rw [if_neg heq]
      exact h.versions other
  case increasing =>
    intro other
    rw [members_extend]
    by_cases heq : stream = other
    · rw [if_pos heq, List.pairwise_append]
      refine ⟨h.increasing stream, pairwise_membersFrom _ _ _, ?_⟩
      intro a ha b hb
      have hold := (h.positions stream a ha).2
      have hnew := (mem_membersFrom hb).1
      omega
    · rw [if_neg heq]
      exact h.increasing other
  case apart =>
    -- Old positions are at most the last one and new ones behind it, so only two
    -- memberships of the same age can meet.
    intro one other a ha b hb heq
    rcases mem_members_extend.mp ha with hold | ⟨rfl, hnew⟩
    · rcases mem_members_extend.mp hb with hold' | ⟨rfl, hnew'⟩
      · exact h.apart one other a hold b hold' heq
      · have := (h.positions one a hold).2
        have := (mem_membersFrom hnew').1
        omega
    · rcases mem_members_extend.mp hb with hold' | ⟨rfl, hnew'⟩
      · have := (h.positions other b hold').2
        have := (mem_membersFrom hnew).1
        omega
      · exact ⟨rfl, eq_of_position_eq (pairwise_membersFrom _ _ _) hnew hnew' heq⟩
  case positions =>
    intro other a ha
    rw [lastPosition_extend]
    rcases mem_members_extend.mp ha with hold | ⟨-, hnew⟩
    · have := h.positions other a hold
      omega
    · have := mem_membersFrom hnew
      have := h.lastPosition_nonneg
      omega
  case nonneg =>
    rw [lastPosition_extend]
    have := h.lastPosition_nonneg
    omega
  case stored =>
    intro other a ha
    rcases mem_members_extend.mp ha with hold | ⟨-, hnew⟩
    · exact h.stored other a hold
    · exact known a.eventId (mem_membersFrom hnew).2.2

theorem without (h : s.Sound) (stream : String) : (s.without stream).Sound := by
  have hsub : ∀ other, (s.without stream).members other = [] ∨
      (s.without stream).members other = s.members other := by
    intro other
    rw [members_without]
    by_cases heq : stream = other
    · exact .inl (if_pos heq)
    · exact .inr (if_neg heq)
  have hmem : ∀ other, ∀ a ∈ (s.without stream).members other, a ∈ s.members other :=
    fun _ _ ha => (mem_members_without.mp ha).2
  exact {
    versions := by
      intro other
      rcases hsub other with hnone | hsame
      · rw [hnone]; rfl
      · rw [hsame]; exact h.versions other
    increasing := by
      intro other
      rcases hsub other with hnone | hsame
      · rw [hnone]; exact .nil
      · rw [hsame]; exact h.increasing other
    apart := fun one other a ha b hb => h.apart one other a (hmem one a ha) b (hmem other b hb)
    positions := fun other a ha => h.positions other a (hmem other a ha)
    lastPosition_nonneg := h.lastPosition_nonneg
    stored := fun other a ha => h.stored other a (hmem other a ha) }

theorem grown (h : s.Sound) (now : Timestamp) (stream : String) (staged : List (Staged ε)) :
    (s.grown now stream staged).Sound :=
  (h.keep now staged).extend stream fun _ hid => hasEvent_keep.mpr (.inl hid)

/-- One call, with any arguments and any draw. -/
theorem effect (h : s.Sound) {draw : Draw} {call : LogCall ε} {after : Store}
    (heffect : call.Effect draw s after) : after.Sound := by
  cases heffect with
  | unchanged => exact h
  | appended => exact h.grown _ _ _
  | linked _ known _ => exact h.extend _ known
  | deleted => exact h.without _

end Sound

/-! ## Positions are given out once -/

/-- A membership of the store has this position. -/
def Holds (s : Store) (position : Int) : Prop :=
  ∃ stream, ∃ a ∈ s.members stream, a.position = position

/-- Between two stores this position is given to a new membership. -/
def GivesOut (s after : Store) (position : Int) : Prop :=
  ∃ stream, ∃ a ∈ after.members stream, a ∉ s.members stream ∧ a.position = position

end Store

namespace LogCall.Effect

variable {draw : Draw} {s after : Store} {call : LogCall ε}

/-- The last position never moves back. -/
theorem lastPosition_le (h : call.Effect draw s after) : s.lastPosition ≤ after.lastPosition := by
  cases h with
  | unchanged => exact Int.le_refl _
  | appended =>
      rw [Store.grown, Store.lastPosition_extend, Store.lastPosition_keep]
      omega
  | linked =>
      rw [Store.lastPosition_extend]
      omega
  | deleted => exact Int.le_refl _

/-- What a call gives out lies behind everything given out before. -/
theorem lastPosition_lt_of_givesOut (h : call.Effect draw s after) {position : Int}
    (hgives : s.GivesOut after position) : s.lastPosition < position := by
  obtain ⟨stream, a, ha, hnew, rfl⟩ := hgives
  have hgrows : ∀ target ids,
      a ∈ (if target = stream then s.members target ++
        Store.membersFrom s.lastPosition (s.lastVersion target) ids else s.members stream) →
      s.lastPosition < a.position := by
    intro target ids ha
    by_cases heq : target = stream
    · rw [if_pos heq, heq] at ha
      rcases List.mem_append.mp ha with hold | hplaced
      · exact absurd hold hnew
      · exact (Store.mem_membersFrom hplaced).1
    · rw [if_neg heq] at ha
      exact absurd ha hnew
  cases h with
  | unchanged => exact absurd ha hnew
  | appended =>
      rw [Store.members_grown] at ha
      exact hgrows _ _ ha
  | linked =>
      rw [Store.members_extend] at ha
      exact hgrows _ _ ha
  | deleted =>
      rw [Store.members_without] at ha
      split at ha
      · cases ha
      · exact absurd ha hnew

end LogCall.Effect

namespace Memory

variable (supply : Nat → Draw)

/-- Any conversation that begins with a sound store. -/
theorem sound_converse {memory : Memory} (h : memory.store.Sound) (calls : List (LogCall ε)) :
    (converse (access supply) calls memory).2.store.Sound :=
  converse_keeps (P := fun later : Memory => later.store.Sound)
    (fun call later h => h.effect (effect_ask supply later call)) calls h

theorem lastPosition_le_converse (memory : Memory) (calls : List (LogCall ε)) :
    memory.store.lastPosition ≤ (converse (access supply) calls memory).2.store.lastPosition :=
  converse_keeps (P := fun later : Memory =>
      memory.store.lastPosition ≤ later.store.lastPosition)
    (fun call later h => Int.le_trans h (effect_ask supply later call).lastPosition_le) calls
    (Int.le_refl _)

theorem sound_empty : empty.store.Sound := Store.Sound.empty

/-- After any calls on an empty store, whatever their arguments and whether they succeed,
the store is sound, the last version of a stream is the number of its memberships, and a
position that any membership has held, deleted since or not, is given out by no later
call. -/
theorem numbering_of_converse :
    (∀ calls : List (LogCall ε),
      let s := (converse (access supply) calls empty).2.store
      s.Sound ∧ ∀ stream, s.lastVersion stream = (s.members stream).length) ∧
    ∀ (earlier later : List (LogCall ε)) (call : LogCall ε) (position : Int),
      let first := (converse (access supply) earlier empty).2
      let second := (converse (access supply) later first).2
      ¬ (first.store.Holds position ∧
        second.store.GivesOut (call.ask (access supply) second).2.store position) := by
  refine ⟨fun calls => ?_, fun earlier later call position => ?_⟩
  · have hsound := sound_converse supply sound_empty calls
    exact ⟨hsound, hsound.lastVersion_eq⟩
  · intro first second ⟨hholds, hgives⟩
    have hsound : first.store.Sound := sound_converse supply sound_empty earlier
    have hkept : first.store.lastPosition ≤ second.store.lastPosition :=
      lastPosition_le_converse supply first later
    have hnew := (effect_ask supply second call).lastPosition_lt_of_givesOut hgives
    obtain ⟨stream, a, ha, rfl⟩ := hholds
    have hheld := (hsound.positions stream a ha).2
    omega

end Memory

end EventLog
