/-
# What a write does to the tables

The counterpart of what a write does to the store in memory. A stream has a head, whose
version counts as 0 without one, and memberships; `Tables.headOf` and `Tables.membersOf`
are the two as the store has them. The statements of a write come to one change of the
tables, `Tables.grownBy` for the memberships of a batch, and `runOn_lockHead` and
`runOn_insertMembers` follow the two building blocks of every write to it.

The order in which the server returns what it inserted is of no account here: it is put in
the order of versions, which on this server it has already.
-/

import EventLog.Proofs.Except
import EventLog.Proofs.Postgres.Transactions
import EventLog.Proofs.Store.Numbering

namespace EventLog.Postgres

/-- A membership as the store in memory has it. -/
def StoredMembership.place (m : StoredMembership) : Membership :=
  ⟨m.position, m.row.version, m.row.eventId⟩

/-- The row in which a stream's membership is stored. -/
def StoredMembership.ofPlace (stream : String) (a : Membership) : StoredMembership :=
  ⟨a.position, ⟨stream, a.version, a.eventId⟩⟩

namespace Tables

/-- There is a body under this identifier. -/
def knows (t : Tables) (id : Uuid) : Bool := t.events.any fun e => e.eventId = id

/-- The version of a stream's head, 0 without one. -/
def headOf (t : Tables) (stream : String) : Int := (t.heads.get? stream).getD 0

/-- The memberships of a stream in the order in which they were inserted. -/
def membersOf (t : Tables) (stream : String) : List Membership :=
  (t.memberships.filter fun m => m.row.stream = stream).map StoredMembership.place

/-- The tables with a head for this stream. -/
def withHead (t : Tables) (stream : String) : Tables :=
  { t with heads := t.heads.insertIfNew stream 0 }

/-- The tables with these rows behind the bodies. -/
def withEvents (t : Tables) (rows : List EventRow) : Tables :=
  { t with events := t.events ++ rows }

/-- The tables with memberships of these events behind version `current` of a stream. -/
def grownBy (t : Tables) (stream : String) (current : Int) (ids : List Uuid) : Tables :=
  { t with
    memberships := t.memberships ++
      (Store.membersFrom t.lastPosition current ids).map (StoredMembership.ofPlace stream)
    lastPosition := t.lastPosition + ids.length }

/-- The tables with the head of a stream, if it has one, at this version. -/
def withHeadAt (t : Tables) (stream : String) (version : Int) : Tables :=
  if t.heads.contains stream then { t with heads := t.heads.insert stream version } else t

/-- The tables without the memberships of a stream and without its head. -/
def without (t : Tables) (stream : String) : Tables :=
  { t with
    memberships := t.memberships.filter fun m => m.row.stream ≠ stream
    heads := t.heads.erase stream }

/-! ## Views -/

theorem headOf_withHead (t : Tables) (stream other : String) :
    (t.withHead stream).headOf other = t.headOf other := by
  unfold headOf withHead
  rw [Dictionary.get?_insertIfNew]
  by_cases h : stream = other
  · rw [if_pos h, ← h]
    rfl
  · rw [if_neg h]

theorem contains_withHead (t : Tables) (stream : String) :
    (t.withHead stream).heads.contains stream = true := by
  rw [Dictionary.contains, withHead, Dictionary.get?_insertIfNew, if_pos rfl]
  rfl

theorem headOf_withHeadAt {t : Tables} {stream : String}
    (there : t.heads.contains stream = true) (version : Int) (other : String) :
    (t.withHeadAt stream version).headOf other =
      if stream = other then version else t.headOf other := by
  rw [withHeadAt, if_pos there, headOf, Dictionary.get?_insert]
  by_cases h : stream = other
  · rw [if_pos h, if_pos h]
    rfl
  · rw [if_neg h, if_neg h]
    rfl

theorem headOf_without (t : Tables) (stream other : String) :
    (t.without stream).headOf other = if stream = other then 0 else t.headOf other := by
  rw [headOf, without, Dictionary.get?_erase]
  by_cases h : stream = other
  · rw [if_pos h, if_pos h]
    rfl
  · rw [if_neg h, if_neg h]
    rfl

theorem mem_membersOf {t : Tables} {stream : String} {a : Membership} :
    a ∈ t.membersOf stream ↔ StoredMembership.ofPlace stream a ∈ t.memberships := by
  unfold membersOf
  rw [List.mem_map]
  constructor
  · rintro ⟨⟨position, ⟨other, version, id⟩⟩, hm, rfl⟩
    obtain ⟨hmem, hstream⟩ := List.mem_filter.mp hm
    have heq : other = stream := of_decide_eq_true hstream
    subst heq
    exact hmem
  · intro h
    exact ⟨_, List.mem_filter.mpr ⟨h, decide_eq_true rfl⟩, rfl⟩

theorem membersOf_grownBy (t : Tables) (stream other : String) (current : Int)
    (ids : List Uuid) :
    (t.grownBy stream current ids).membersOf other =
      if stream = other then t.membersOf stream ++ Store.membersFrom t.lastPosition current ids
      else t.membersOf other := by
  unfold membersOf grownBy
  rw [List.filter_append, List.map_append, List.filter_map, List.map_map]
  by_cases h : stream = other
  · subst h
    have hall : ((Store.membersFrom t.lastPosition current ids).filter
        ((fun m => decide (m.row.stream = stream)) ∘ StoredMembership.ofPlace stream)) =
        Store.membersFrom t.lastPosition current ids :=
      List.filter_eq_self.mpr fun a _ => decide_eq_true rfl
    rw [if_pos rfl, hall]
    congr 1
    exact List.map_id _
  · have hnone : ((Store.membersFrom t.lastPosition current ids).filter
        ((fun m => decide (m.row.stream = other)) ∘ StoredMembership.ofPlace stream)) = [] :=
      List.filter_eq_nil_iff.mpr fun a _ hkept => h (of_decide_eq_true hkept)
    rw [if_neg h, hnone]
    simp

theorem membersOf_without (t : Tables) (stream other : String) :
    (t.without stream).membersOf other = if stream = other then [] else t.membersOf other := by
  unfold membersOf without
  rw [List.filter_filter]
  by_cases h : stream = other
  · subst h
    rw [if_pos rfl, List.filter_eq_nil_iff.mpr fun m _ => by simp]
    rfl
  · rw [if_neg h]
    congr 1
    apply List.filter_congr
    intro m _
    by_cases hm : m.row.stream = other
    · simp [hm, Ne.symm h]
    · simp [hm]

theorem knows_withEvents (t : Tables) (rows : List EventRow) (id : Uuid) :
    (t.withEvents rows).knows id = (t.knows id || decide (id ∈ rows.map EventRow.eventId)) := by
  unfold knows withEvents
  rw [List.any_append]
  congr 1
  rw [Bool.eq_iff_iff, List.any_eq_true, decide_eq_true_iff, List.mem_map]
  constructor
  · rintro ⟨row, hrow, hid⟩
    exact ⟨row, hrow, of_decide_eq_true hid⟩
  · rintro ⟨row, hrow, hid⟩
    exact ⟨row, hrow, decide_eq_true hid⟩

/-! ## Insertions that are not refused -/

/-- Bodies are inserted if their identifiers are new and differ from each other. -/
theorem insertEvents_eq {t : Tables} {rows : List EventRow}
    (unknown : ∀ row ∈ rows, t.knows row.eventId = false)
    (distinct : (rows.map EventRow.eventId).Nodup) :
    t.insertEvents rows = .ok (t.withEvents rows) := by
  induction rows generalizing t with
  | nil => simp [insertEvents, withEvents]
  | cons row rest ih =>
      rw [List.map_cons, List.nodup_cons] at distinct
      have hnew : t.knows row.eventId = false := unknown row List.mem_cons_self
      have hrest : ∀ other ∈ rest, (t.withEvents [row]).knows other.eventId = false := by
        intro other hother
        have hne : other.eventId ≠ row.eventId := fun heq =>
          distinct.1 (heq ▸ List.mem_map_of_mem hother)
        rw [knows_withEvents, unknown other (List.mem_cons_of_mem _ hother)]
        simp [hne]
      rw [insertEvents, show (t.events.any fun e => e.eventId = row.eventId) = false from hnew]
      refine (ih hrest distinct.2).trans ?_
      simp [withEvents]

/-- The version that a membership is to have is free, and its event is there. -/
theorem insertMembership_eq {t : Tables} (row : MembershipRow)
    (free : ∀ a ∈ t.membersOf row.stream, a.version ≠ row.version)
    (known : t.knows row.eventId = true) :
    t.insertMembership row = .ok { t with
      memberships := t.memberships ++ [⟨t.lastPosition + 1, row⟩]
      lastPosition := t.lastPosition + 1 } := by
  have hfree : ¬ (t.memberships.any fun m =>
      m.row.stream = row.stream ∧ m.row.version = row.version) = true := by
    intro htaken
    obtain ⟨⟨position, ⟨other, version, id⟩⟩, hm, heq⟩ := List.any_eq_true.mp htaken
    obtain ⟨rfl, rfl⟩ := of_decide_eq_true heq
    exact free ⟨position, row.version, id⟩ (mem_membersOf.mpr hm) rfl
  rw [insertMembership, if_neg hfree]
  exact if_pos known

theorem insertMemberships_cons (t : Tables) (row : MembershipRow) (rest : List MembershipRow) :
    t.insertMemberships (row :: rest) = (t.insertMembership row).bind fun next =>
      (next.insertMemberships rest).map fun last =>
        (⟨next.lastPosition, row⟩ :: last.1, last.2) := by
  rw [insertMemberships]
  cases t.insertMembership row with
  | error failure => rfl
  | ok next =>
      show (next.insertMemberships rest >>= _) = (next.insertMemberships rest).map _
      cases next.insertMemberships rest <;> rfl

/-- Memberships behind the highest version of a stream are all inserted. -/
theorem insertMemberships_eq {t : Tables} {stream : String} {current : Int} {ids : List Uuid}
    (highest : ∀ a ∈ t.membersOf stream, a.version ≤ current)
    (known : ∀ id ∈ ids, t.knows id = true) :
    t.insertMemberships (membershipRows stream current ids) =
      .ok ((Store.membersFrom t.lastPosition current ids).map (StoredMembership.ofPlace stream),
        t.grownBy stream current ids) := by
  induction ids generalizing t current with
  | nil => simp [membershipRows, insertMemberships, Store.membersFrom, grownBy]
  | cons id rest ih =>
      have hfree : ∀ a ∈ t.membersOf stream, a.version ≠ current + 1 := by
        intro a ha
        have := highest a ha
        omega
      have hone := insertMembership_eq ⟨stream, current + 1, id⟩ hfree
        (known id List.mem_cons_self)
      have hgrown : ({ t with
          memberships := t.memberships ++ [⟨t.lastPosition + 1, ⟨stream, current + 1, id⟩⟩]
          lastPosition := t.lastPosition + 1 } : Tables) = t.grownBy stream current [id] := rfl
      have hhighest : ∀ a ∈ (t.grownBy stream current [id]).membersOf stream,
          a.version ≤ current + 1 := by
        intro a ha
        rw [membersOf_grownBy, if_pos rfl] at ha
        rcases List.mem_append.mp ha with hold | hnew
        · have := highest a hold
          omega
        · exact Int.le_of_eq (congrArg Membership.version (List.mem_singleton.mp hnew))
      have hrest := ih hhighest fun other hother => known other (List.mem_cons_of_mem _ hother)
      have hlast : (t.grownBy stream current [id]).lastPosition = t.lastPosition + 1 := rfl
      rw [hlast] at hrest
      rw [membershipRows, insertMemberships_cons, hone, hgrown, Except.bind, hrest, Except.map]
      congr 2
      unfold grownBy
      simp [Store.membersFrom, StoredMembership.ofPlace, List.append_assoc]
      omega

end Tables

/-! ## The building blocks of a write -/

section Running

variable {t u : Tables}

/-- Inside a transaction a statement that does not end it works on the pending tables. -/
theorem carryOut_of_pending {t u after : Tables} {statement : Statement} {reply : Reply}
    (hbegin : statement ≠ .begin) (hcommit : statement ≠ .commit)
    (h : u.carryOut statement = (reply, after)) :
    Server.carryOut ⟨t, some u⟩ statement = (reply, ⟨t, some after⟩) := by
  rw [Server.carryOut]
  · dsimp only
    rw [h]
  · exact hbegin
  · exact hcommit

/-- Locking the head makes one if need be and compares the version. -/
theorem runOn_lockHead (t u : Tables) (stream : String) (expected : Option Int) :
    (lockHead stream expected).runOn ⟨t, some u⟩ =
      (if versionMatches expected (u.headOf stream) then .ok (u.headOf stream)
        else .error (.conflict stream expected (u.headOf stream)),
        ⟨t, some (u.withHead stream)⟩) := by
  have hensure : (Program.execute (.ensureHead stream)).runOn ⟨t, some u⟩ =
      (.ok (), ⟨t, some (u.withHead stream)⟩) := Program.runOn_execute rfl
  have hhead : (u.withHead stream).heads.get? stream = some (u.headOf stream) := by
    rw [Tables.withHead, Dictionary.get?_insertIfNew, if_pos rfl]
    rfl
  have hreply : Server.carryOut ⟨t, some (u.withHead stream)⟩ (.lockHead stream) =
      (.table (Tables.single "last_version" .int8 [.int (u.headOf stream)]),
        ⟨t, some (u.withHead stream)⟩) := by
    show (Reply.table (Tables.single "last_version" .int8
      (((u.withHead stream).heads.get? stream).map Cell.int).toList), _) = _
    rw [hhead]
    rfl
  have hfetch : (Program.fetchOne (.lockHead stream) fun row => row.at? 0 int8).runOn
      ⟨t, some (u.withHead stream)⟩ = (.ok (u.headOf stream), ⟨t, some (u.withHead stream)⟩) :=
    Program.runOn_fetchOne hreply rfl rfl
  rw [lockHead, Program.runOn_bind_of_ok hensure, Program.runOn_bind_of_ok hfetch]
  cases expected with
  | none => simp [versionMatches, Program.runOn_pure]
  | some version =>
      by_cases h : version = u.headOf stream
      · simp [versionMatches, h, Program.runOn_pure]
      · simp [versionMatches, h, Program.fail]

/-- Bodies with new identifiers are stored. -/
theorem runOn_insertEvents {rows : List EventRow}
    (unknown : ∀ row ∈ rows, u.knows row.eventId = false)
    (distinct : (rows.map EventRow.eventId).Nodup) :
    (Program.execute (.insertEvents rows)).runOn ⟨t, some u⟩ =
      (.ok (), ⟨t, some (u.withEvents rows)⟩) := by
  have hinserted : u.carryOut (.insertEvents rows) = (.table .none, u.withEvents rows) := by
    rw [Tables.carryOut, Tables.insertEvents_eq unknown distinct]
  exact Program.runOn_execute
    (carryOut_of_pending (by simp) (by simp) hinserted)

/-- A membership as the server reports it once it is inserted. -/
def placeOf (a : Membership) : Place := ⟨a.version, a.position⟩

theorem pairwise_version_membersFrom (position current : Int) (ids : List Uuid) :
    ((Store.membersFrom position current ids).map placeOf).Pairwise
      fun a b => decide (a.version ≤ b.version) = true := by
  rw [List.pairwise_map, List.pairwise_iff_getElem]
  intro i j hi hj hlt
  have hfirst := List.getElem?_eq_getElem hi
  have hsecond := List.getElem?_eq_getElem hj
  rw [Store.getElem?_membersFrom, Option.map_eq_some_iff] at hfirst hsecond
  obtain ⟨_, _, hfirst⟩ := hfirst
  obtain ⟨_, _, hsecond⟩ := hsecond
  rw [← hfirst, ← hsecond]
  apply decide_eq_true
  dsimp only [placeOf]
  omega

/-- Memberships behind the highest version are inserted, and the head follows them. -/
theorem runOn_insertMembers {stream : String} {current : Int} {ids : List Uuid}
    (highest : ∀ a ∈ u.membersOf stream, a.version ≤ current)
    (known : ∀ id ∈ ids, u.knows id = true) :
    (insertMembers stream current ids).runOn ⟨t, some u⟩ =
      (.ok ((Store.membersFrom u.lastPosition current ids).map placeOf),
        ⟨t, some ((u.grownBy stream current ids).withHeadAt stream (current + ids.length))⟩) := by
  have hinserted : u.carryOut (.insertMemberships (membershipRows stream current ids)) =
      (.table ⟨[⟨"stream_version", .int8⟩, ⟨"position", .int8⟩],
        ((Store.membersFrom u.lastPosition current ids).map
          (StoredMembership.ofPlace stream)).map Tables.placeCells⟩,
        u.grownBy stream current ids) := by
    rw [Tables.carryOut, Tables.insertMemberships_eq highest known]
  have hfetch : (Program.fetchAll (.insertMemberships (membershipRows stream current ids))
      (explainInsert stream current)
      fun row => do return (⟨← row.at? 0 int8, ← row.at? 1 int8⟩ : Place)).runOn ⟨t, some u⟩ =
      (.ok ((Store.membersFrom u.lastPosition current ids).map placeOf),
        ⟨t, some (u.grownBy stream current ids)⟩) := by
    refine Program.runOn_fetchAll
      (carryOut_of_pending (by simp) (by simp) hinserted) ?_
    unfold Table.labelled
    rw [List.map_map, List.map_map]
    exact Except.mapM_map_of_ok fun a _ => rfl
  have hmoved : (Program.execute (.moveHead stream (current + ids.length))).runOn
      ⟨t, some (u.grownBy stream current ids)⟩ = (.ok (), ⟨t, some
        ((u.grownBy stream current ids).withHeadAt stream (current + ids.length))⟩) :=
    Program.runOn_execute rfl
  rw [insertMembers, Program.runOn_bind_of_ok hfetch, Program.runOn_bind_of_ok hmoved,
    Program.runOn_pure, List.mergeSort_of_pairwise (pairwise_version_membersFrom _ _ _)]

end Running

end EventLog.Postgres
