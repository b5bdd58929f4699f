/-
# Where an event stands

The two lookups that search for one event, characterised by what they return and not by how
they look for it: the stream found is that of the smallest position at which the event
stands anywhere (`Sound.streamOf_eq_some_iff`), and the version found in a stream is the
highest one there (`Sound.versionIn_eq_some_iff`). Another keeper of the same memberships
that answers by any other search gives the same answers.
-/

import EventLog.Proofs.Dictionary
import EventLog.Proofs.Store.Numbering
import EventLog.Store.Lookup

namespace EventLog

/-- What is found comes before everything else that could be found. -/
theorem eq_or_rel_of_find? {α : Type} {R : α → α → Prop} {p : α → Bool} {l : List α} {a b : α}
    (ordered : l.Pairwise R) (ha : l.find? p = some a) (hb : b ∈ l) (hp : p b = true) :
    a = b ∨ R a b := by
  obtain ⟨-, before, after, rfl, hbefore⟩ := List.find?_eq_some_iff_append.mp ha
  rcases List.mem_append.mp hb with hmem | hmem
  · have hnot := hbefore b hmem
    rw [hp] at hnot
    cases hnot
  · rcases List.mem_cons.mp hmem with rfl | hmem
    · exact .inl rfl
    · exact .inr ((List.pairwise_cons.mp (List.pairwise_append.mp ordered).2.1).1 b hmem)

namespace Store

variable {s : Store}

/-- The places of an event are its memberships, each with its stream. -/
theorem mem_placesOf {id : Uuid} {position : Int} {stream : String} :
    (position, stream) ∈ s.placesOf id ↔
      ∃ a ∈ s.members stream, a.eventId = id ∧ a.position = position := by
  unfold placesOf members
  rw [List.mem_flatMap]
  constructor
  · rintro ⟨⟨key, list⟩, hentry, hplace⟩
    obtain ⟨a, ha, heq⟩ := List.mem_map.mp hplace
    cases heq
    rw [Dictionary.get?_eq_some_iff_mem.mpr hentry]
    obtain ⟨ha, hid⟩ := List.mem_filter.mp ha
    exact ⟨a, ha, of_decide_eq_true hid, rfl⟩
  · rintro ⟨a, ha, hid, hposition⟩
    cases hlist : s.streams.get? stream with
    | none =>
        rw [hlist] at ha
        cases ha
    | some list =>
        rw [hlist] at ha
        refine ⟨(stream, list), Dictionary.get?_eq_some_iff_mem.mp hlist, ?_⟩
        exact List.mem_map.mpr
          ⟨a, List.mem_filter.mpr ⟨ha, decide_eq_true hid⟩, by rw [hposition]⟩

theorem earliest_eq_none_iff {places : List (Int × String)} :
    earliest places = none ↔ places = [] := by
  cases places with
  | nil => simp [earliest]
  | cons place rest =>
      rw [earliest]
      cases earliest rest with
      | none => simp
      | some other => by_cases h : other.1 < place.1 <;> simp [h]

/-- The earliest place is one of the places, and none lies before it. -/
theorem le_of_earliest {places : List (Int × String)} {place : Int × String}
    (h : earliest places = some place) :
    place ∈ places ∧ ∀ other ∈ places, place.1 ≤ other.1 := by
  induction places generalizing place with
  | nil => cases h
  | cons first rest ih =>
      rw [earliest] at h
      cases hrest : earliest rest with
      | none =>
          rw [hrest] at h
          cases h
          rw [earliest_eq_none_iff.mp hrest]
          simp
      | some best =>
          rw [hrest] at h
          obtain ⟨hmem, hbest⟩ := ih hrest
          dsimp only at h
          by_cases hlt : best.1 < first.1
          · rw [if_pos hlt] at h
            cases h
            refine ⟨List.mem_cons_of_mem _ hmem, fun other hother => ?_⟩
            rcases List.mem_cons.mp hother with rfl | hother
            · exact Int.le_of_lt hlt
            · exact hbest other hother
          · rw [if_neg hlt] at h
            cases h
            refine ⟨List.mem_cons_self, fun other hother => ?_⟩
            rcases List.mem_cons.mp hother with rfl | hother
            · exact Int.le_refl _
            · have := hbest other hother
              omega

namespace Sound

variable (h : s.Sound)

include h

/-- Two memberships at one position are in one stream. -/
theorem stream_eq_of_position_eq {stream other : String} {a b : Membership}
    (ha : a ∈ s.members stream) (hb : b ∈ s.members other) (heq : a.position = b.position) :
    stream = other :=
  (h.apart stream other a ha b hb heq).1

/-- The stream of an event is the one with the smallest position at which it stands. -/
theorem streamOf_eq_some_iff {id : Uuid} {stream : String} :
    s.streamOf id = some stream ↔ ∃ a ∈ s.members stream, a.eventId = id ∧
      ∀ other, ∀ b ∈ s.members other, b.eventId = id → a.position ≤ b.position := by
  unfold streamOf
  rw [Option.map_eq_some_iff]
  constructor
  · rintro ⟨⟨position, found⟩, hplace, rfl⟩
    obtain ⟨hmem, hleast⟩ := le_of_earliest hplace
    obtain ⟨a, ha, hid, hposition⟩ := mem_placesOf.mp hmem
    refine ⟨a, ha, hid, fun other b hb hb' => ?_⟩
    rw [hposition]
    exact hleast (b.position, other) (mem_placesOf.mpr ⟨b, hb, hb', rfl⟩)
  · rintro ⟨a, ha, hid, hleast⟩
    have hplace : (a.position, stream) ∈ s.placesOf id := mem_placesOf.mpr ⟨a, ha, hid, rfl⟩
    cases hearliest : earliest (s.placesOf id) with
    | none =>
        rw [earliest_eq_none_iff.mp hearliest] at hplace
        cases hplace
    | some best =>
        obtain ⟨hmem, hbest⟩ := le_of_earliest hearliest
        obtain ⟨b, hb, hb', hposition⟩ := mem_placesOf.mp hmem
        have hle := hbest _ hplace
        have hge := hleast best.2 b hb hb'
        have heq : b.position = a.position := by
          dsimp only at hle
          omega
        exact ⟨best, rfl, h.stream_eq_of_position_eq hb ha heq⟩

/-- The version of an event in a stream is the highest at which it stands there. -/
theorem versionIn_eq_some_iff {stream : String} {id : Uuid} {version : Int} :
    s.versionIn stream id = some version ↔ ∃ a ∈ s.members stream, a.eventId = id ∧
      a.version = version ∧ ∀ b ∈ s.members stream, b.eventId = id → b.version ≤ version := by
  have hdown : (s.members stream).reverse.Pairwise fun a b => b.version < a.version :=
    List.pairwise_reverse.mpr (h.version_lt_of_pairwise stream)
  have hfound : ∀ {a}, (s.members stream).reverse.find? (fun member => member.eventId = id) =
      some a → a ∈ s.members stream ∧ a.eventId = id ∧
        ∀ b ∈ s.members stream, b.eventId = id → b.version ≤ a.version := by
    intro a ha
    have hid := List.find?_some ha
    refine ⟨List.mem_reverse.mp (List.mem_of_find?_eq_some ha), of_decide_eq_true hid,
      fun b hb hb' => ?_⟩
    rcases eq_or_rel_of_find? hdown ha (List.mem_reverse.mpr hb) (decide_eq_true hb') with
      rfl | hlt
    · exact Int.le_refl _
    · exact Int.le_of_lt hlt
  unfold versionIn
  rw [Option.map_eq_some_iff]
  constructor
  · rintro ⟨a, ha, rfl⟩
    obtain ⟨hmem, hid, hhighest⟩ := hfound ha
    exact ⟨a, hmem, hid, rfl, hhighest⟩
  · rintro ⟨a, ha, hid, rfl, hhighest⟩
    cases hfind : (s.members stream).reverse.find? fun member => member.eventId = id with
    | none =>
        have habsent := List.find?_eq_none.mp hfind a (List.mem_reverse.mpr ha)
        simp [hid] at habsent
    | some b =>
        obtain ⟨hmem, hb, hbest⟩ := hfound hfind
        have hle := hbest a ha hid
        have hge := hhighest b hmem hb
        exact ⟨b, rfl, by omega⟩

end Sound

end Store

end EventLog
