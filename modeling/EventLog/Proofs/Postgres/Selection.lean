/-
# A read as SQL selects what the read means

What SQL promises of the rows is `Tables.Returns`: the join has no order, and rows that agree
in what they are sorted by may come in any order. Because versions are unique in a stream,
that leaves one list, and it is the list that the log in memory goes through
(`places_of_returns`). Nothing else is asked of the tables: versions may have gaps, and
positions may be any numbers.

The store that is compared holds the same memberships, each stream in the order of its
versions. Times are taken to be kept in full.
-/

import EventLog.Order.Event
import EventLog.Proofs.Postgres.Clauses
import EventLog.Proofs.Postgres.Writes
import EventLog.Proofs.Store.Reading
import Mathlib.Data.List.Sort

namespace EventLog.Postgres

/-! ## What SQL returns -/

/-- The rows stand in the order asked for; of equal ones either may come first. -/
def inOrder (direction : ReadDirection) (a b : JoinedRow) : Prop :=
  match direction with
  | .forward => a.1.row.version ≤ b.1.row.version
  | .backward => b.1.row.version ≤ a.1.row.version

namespace Tables

/-- SQL may return these rows: those of the join that pass, sorted, and cut off at the limit. -/
def Returns (t : Tables) (s : Select) (rows : List JoinedRow) : Prop :=
  ∃ sorted, sorted.Perm (t.joined.filter s.selects) ∧ sorted.Pairwise (inOrder s.direction) ∧
    rows = s.limited sorted

/-- Sorting puts a list in order. -/
theorem pairwise_mergeSort_of {α : Type} {R : α → α → Prop} [DecidableRel R]
    (trans : ∀ a b c, R a b → R b c → R a c) (total : ∀ a b, R a b ∨ R b a) (list : List α) :
    (list.mergeSort fun a b => decide (R a b)).Pairwise R := by
  refine (List.pairwise_mergeSort (fun a b c hab hbc => ?_) (fun a b => ?_) list).imp
    of_decide_eq_true
  · exact decide_eq_true (trans a b c (of_decide_eq_true hab) (of_decide_eq_true hbc))
  · simpa using total a b

theorem returns_rowsOf (t : Tables) (s : Select) : t.Returns s (t.rowsOf s) := by
  refine ⟨Select.ordered s.direction (t.joined.filter s.selects), ?_, ?_, rfl⟩
  · unfold Select.ordered
    cases s.direction with
    | forward => exact List.mergeSort_perm _ _
    | backward => exact List.mergeSort_perm _ _
  · unfold Select.ordered inOrder
    cases s.direction with
    | forward =>
        exact pairwise_mergeSort_of (R := fun a b : JoinedRow => a.1.row.version ≤ b.1.row.version)
          (fun _ _ _ => Int.le_trans) (fun _ _ => Int.le_total _ _) _
    | backward =>
        exact pairwise_mergeSort_of (R := fun a b : JoinedRow => b.1.row.version ≤ a.1.row.version)
          (fun _ _ _ hab hbc => Int.le_trans hbc hab) (fun _ _ => Int.le_total _ _) _

theorem mem_joined {t : Tables} {row : JoinedRow} : row ∈ t.joined ↔
    row.1 ∈ t.memberships ∧ row.2 ∈ t.events ∧ row.2.eventId = row.1.row.eventId := by
  obtain ⟨m, e⟩ := row
  simp [joined, and_assoc]

/-- Versions are unique in each stream, and each membership is about exactly one event. -/
structure Keyed (t : Tables) : Prop where
  versions : (t.memberships.map fun m => (m.row.stream, m.row.version)).Nodup
  events : ∀ m ∈ t.memberships, ∃ e, (t.events.filter fun e => e.eventId = m.row.eventId) = [e]

namespace Keyed

variable {t : Tables} (h : t.Keyed)

include h

/-- There are no two events for a membership. -/
theorem event_eq {m : StoredMembership} (hm : m ∈ t.memberships) {e other : EventRow}
    (he : e ∈ t.events) (hother : other ∈ t.events) (hid : e.eventId = m.row.eventId)
    (hid' : other.eventId = m.row.eventId) : e = other := by
  obtain ⟨found, hfound⟩ := h.events m hm
  have hmem : ∀ row ∈ t.events, row.eventId = m.row.eventId → row = found := by
    intro row hrow hrow'
    rw [← List.mem_singleton, ← hfound]
    exact List.mem_filter.mpr ⟨hrow, decide_eq_true hrow'⟩
  exact (hmem e he hid).trans (hmem other hother hid').symm

/-- The join has one row for each membership. -/
theorem map_fst_joined : t.joined.map Prod.fst = t.memberships := by
  have hevents := h.events
  unfold joined
  generalize t.memberships = members at hevents
  induction members with
  | nil => rfl
  | cons m rest ih =>
      obtain ⟨e, he⟩ := hevents m List.mem_cons_self
      rw [List.flatMap_cons, he, List.map_append,
        ih fun other hother => hevents other (List.mem_cons_of_mem _ hother)]
      rfl

end Keyed

end Tables

/-! ## The same rows in memory -/

/-- The body is what the row keeps of it. -/
structure EventRow.Keeps (e : EventRow) (body : StoredEvent) : Prop where
  name : body.name = e.name
  payload : body.payload = e.payload
  createdAt : body.createdAt = e.createdAt
  headers : ∀ headers, Headers.ofMetadata e.metadata = .ok headers → body.headers = headers

/-- The store holds the memberships of the tables, each stream in the order of its versions, and
the bodies of the events that they are about. -/
structure SameRows (s : Store) (t : Tables) : Prop where
  members : ∀ m, m ∈ t.memberships ↔ m.place ∈ s.members m.row.stream
  ascending : ∀ stream, (s.members stream).Pairwise fun a b => a.version < b.version
  bodies : ∀ m ∈ t.memberships, ∀ e ∈ t.events, e.eventId = m.row.eventId →
    ∃ body, s.events.get? e.eventId = some body ∧ e.Keeps body

/-- The first of two memberships in this direction. -/
def before (direction : ReadDirection) (a b : Membership) : Prop :=
  match direction with
  | .forward => a.version < b.version
  | .backward => b.version < a.version

instance (direction : ReadDirection) : Std.Irrefl (before direction) where
  irrefl a := by cases direction <;> exact Int.lt_irrefl _

instance (direction : ReadDirection) : Std.Antisymm (before direction) where
  antisymm a b hab hba := by
    cases direction with
    | forward => exact absurd hba (Int.not_lt.mpr (Int.le_of_lt hab))
    | backward => exact absurd hba (Int.not_lt.mpr (Int.le_of_lt hab))

namespace SameRows

variable {s : Store} {t : Tables} (h : SameRows s t)

include h

/-- What the log in memory goes through is in the direction of the read. -/
theorem pairwise_directed (spec : ReadSpec) :
    ((spec.directed (s.members spec.stream)).filter (s.admitted spec)).Pairwise
      (before spec.direction) := by
  apply List.Pairwise.filter
  unfold ReadSpec.directed before
  cases spec.direction with
  | forward => exact h.ascending spec.stream
  | backward => exact List.pairwise_reverse.mpr (h.ascending spec.stream)

omit h in
/-- Sorted rows of one stream are in strict order, no version occurring twice. -/
theorem pairwise_sorted (keyed : t.Keyed) {select : Select} {stream : String}
    {sorted : List JoinedRow} (hperm : sorted.Perm (t.joined.filter select.selects))
    (hsorted : sorted.Pairwise (inOrder select.direction))
    (hstream : ∀ row ∈ sorted, row.1.row.stream = stream) :
    (sorted.map fun row => row.1.place).Pairwise (before select.direction) := by
  have hkeys : (sorted.map fun row => (row.1.row.stream, row.1.row.version)).Nodup := by
    have hall := keyed.versions
    rw [← keyed.map_fst_joined, List.map_map] at hall
    exact ((hperm.map _).nodup_iff).mpr (hall.sublist (List.filter_sublist.map _))
  rw [List.pairwise_map]
  refine List.Pairwise.imp_of_mem ?_ (hsorted.and (List.pairwise_map.mp hkeys))
  rintro a b ha hb ⟨hle, hne⟩
  have hversion : a.1.row.version ≠ b.1.row.version := fun heq =>
    hne (Prod.ext ((hstream a ha).trans (hstream b hb).symm) heq)
  unfold inOrder at hle
  unfold before
  cases hdirection : select.direction with
  | forward =>
      rw [hdirection] at hle
      exact lt_of_le_of_ne hle hversion
  | backward =>
      rw [hdirection] at hle
      exact lt_of_le_of_ne hle hversion.symm

/-- A read in memory admits a membership if its row passes. -/
theorem admitted_place {row : JoinedRow} (hrow : row ∈ t.joined) (spec : ReadSpec) :
    s.admitted spec row.1.place =
      spec.admits row.1.position row.2.createdAt row.1.row.eventId := by
  obtain ⟨hm, he, hid⟩ := Tables.mem_joined.mp hrow
  obtain ⟨body, hbody, hkeeps⟩ := h.bodies row.1 hm row.2 he hid
  rw [hid] at hbody
  rw [Store.admitted, show row.1.place.eventId = row.1.row.eventId from rfl, hbody,
    ← hkeeps.createdAt]
  rfl

/-- Whatever SQL may return for a read, it shows the memberships that the log in memory goes
through, in the same order. -/
theorem places_of_returns (keyed : t.Keyed) {spec : ReadSpec} {select : Select}
    (binds : select.Binds spec) {rows : List JoinedRow} (hrows : t.Returns select rows) :
    (rows.map fun row => row.1.place) = s.matching (capped spec) := by
  obtain ⟨sorted, hperm, hsorted, rfl⟩ := hrows
  have hmem : ∀ row, row ∈ sorted ↔ row ∈ t.joined ∧ row.1.row.stream = spec.stream ∧
      spec.admits row.1.position row.2.createdAt row.1.row.eventId = true := by
    intro row
    rw [hperm.mem_iff, List.mem_filter, binds.selects_iff]
  have hstrict := pairwise_sorted keyed hperm hsorted fun row hrow => ((hmem row).mp hrow).2.1
  rw [binds.direction] at hstrict
  have hsame : (sorted.map fun row => row.1.place) =
      (spec.directed (s.members spec.stream)).filter (s.admitted spec) := by
    refine hstrict.eq_of_mem_iff (h.pairwise_directed spec) fun a => ?_
    rw [List.mem_map, List.mem_filter, ReadSpec.mem_directed]
    constructor
    · rintro ⟨row, hrow, rfl⟩
      obtain ⟨hjoined, hstream, hadmits⟩ := (hmem row).mp hrow
      have hplace := (h.members row.1).mp (Tables.mem_joined.mp hjoined).1
      exact ⟨hstream ▸ hplace, (h.admitted_place hjoined spec).trans hadmits⟩
    · rintro ⟨ha, hadmitted⟩
      have hm : .ofPlace spec.stream a ∈ t.memberships := (h.members _).mpr ha
      obtain ⟨e, he⟩ := keyed.events _ hm
      have hevent := List.mem_filter.mp (he ▸ List.mem_singleton_self e)
      have hjoined : (.ofPlace spec.stream a, e) ∈ t.joined :=
        Tables.mem_joined.mpr ⟨hm, hevent.1, of_decide_eq_true hevent.2⟩
      exact ⟨_, (hmem _).mpr ⟨hjoined, rfl, (h.admitted_place hjoined spec).symm.trans hadmitted⟩,
        rfl⟩
  rw [binds.limited_eq, ReadSpec.map_limited, hsame]
  rfl

/-- A row that is read stands for the envelope that the log in memory has for it. -/
theorem envelopeOfRow_eq {ε : Type} {row : JoinedRow} (hrow : row ∈ t.joined) {headers : Headers}
    (hheaders : Headers.ofMetadata row.2.metadata = .ok headers) :
    ∃ envelope : Envelope ε, s.envelope? row.1.place = some envelope ∧
      envelopeOfRow (Tables.readColumns.zip (Tables.readCells row)) = .ok envelope := by
  obtain ⟨hm, he, hid⟩ := Tables.mem_joined.mp hrow
  obtain ⟨body, hbody, hkeeps⟩ := h.bodies row.1 hm row.2 he hid
  have hstored : StoredRow.ofRow (Tables.readColumns.zip (Tables.readCells row)) =
      .ok ⟨row.1.row.version, row.1.position, row.2.eventId, row.2.name, row.2.payload,
        row.2.metadata⟩ := rfl
  have hplace : s.events.get? row.1.place.eventId = some body :=
    (congrArg s.events.get? hid).symm.trans hbody
  refine ⟨_, Store.envelope?_eq_some hplace, ?_⟩
  rw [hkeeps.name, hkeeps.payload, hkeeps.headers headers hheaders, envelopeOfRow, hstored]
  show (Headers.ofMetadata row.2.metadata).map _ = _
  rw [hheaders, hid]
  rfl

end SameRows

theorem Tables.Returns.subset {t : Tables} {select : Select} {rows : List JoinedRow}
    (h : t.Returns select rows) : rows ⊆ t.joined := by
  obtain ⟨sorted, hperm, -, rfl⟩ := h
  have hlimited : select.limited sorted ⊆ sorted := by
    unfold Select.limited
    split
    · exact List.Subset.refl _
    · exact List.take_subset _ _
    · exact List.nil_subset _
  exact fun row hrow => (List.mem_filter.mp (hperm.mem_iff.mp (hlimited hrow))).1

namespace SameRows

variable {s : Store} {t : Tables} (h : SameRows s t) (keyed : t.Keyed) {spec : ReadSpec}
  {rows : List JoinedRow} (hrows : t.Returns (.ofSpec spec) rows)

include h keyed hrows

/-- The envelopes of a read, if all headers can be read back. -/
theorem follow_query {ε : Type}
    (readable : ∀ e ∈ t.events, ∃ headers, Headers.ofMetadata e.metadata = .ok headers) :
    (query spec : Program (List (Envelope ε))).follow
        [.table ⟨Tables.readColumns, rows.map Tables.readCells⟩] =
      ⟨[.statement (.select (.ofSpec spec))], .ok (s.query (capped spec)), []⟩ := by
  have hplaces := h.places_of_returns keyed (Select.binds_ofSpec spec) hrows
  have hdecoded : (rows.map fun row => Tables.readColumns.zip (Tables.readCells row)).mapM
      envelopeOfRow =
        .ok (rows.filterMap fun row => (s.envelope? row.1.place : Option (Envelope ε))) := by
    rw [List.mapM_map]
    refine Except.mapM_eq_filterMap fun row hrow => ?_
    have hjoined := hrows.subset hrow
    obtain ⟨headers, hheaders⟩ := readable row.2 (Tables.mem_joined.mp hjoined).2.1
    exact h.envelopeOfRow_eq hjoined hheaders
  have hquery : s.query (capped spec) =
      rows.filterMap fun row => (s.envelope? row.1.place : Option (Envelope ε)) := by
    rw [Store.query, ← hplaces, List.filterMap_map]
    rfl
  have hlabelled : (⟨Tables.readColumns, rows.map Tables.readCells⟩ : Table).labelled =
      rows.map fun row => Tables.readColumns.zip (Tables.readCells row) := List.map_map
  rw [hquery, ← hdecoded, ← hlabelled]
  rfl

/-- How many there are. -/
theorem follow_count :
    (count spec).follow [.table (Tables.single "count" .int8 [.int rows.length])] =
      ⟨[.statement (.count (.ofSpec spec))], .ok (s.count (capped spec)), []⟩ := by
  have hplaces := h.places_of_returns keyed (Select.binds_ofSpec spec) hrows
  have hcount : s.count (capped spec) = rows.length := by
    rw [Store.count, ← hplaces, List.length_map]
  have hpositive : 0 ≤ (rows.length : Int) := Int.natCast_nonneg _
  have hasked : (count spec).follow [.table (Tables.single "count" .int8 [.int rows.length])] =
      (Program.send (.count (.ofSpec spec)) fun _ =>
        if 0 ≤ (rows.length : Int) then pure (rows.length : Int).toNat
        else Program.fail (.unexpected "a count cannot be negative")).follow [.table .none] := rfl
  rw [hcount, hasked, Program.follow, if_pos hpositive]
  rfl

end SameRows

/-- A limit beyond an eight-byte integer stops nothing that can be numbered by one. -/
theorem matching_capped {s : Store} {spec : ReadSpec}
    (h : (∀ k, spec.limit = some k → k ≤ maxInt8) ∨ (s.members spec.stream).length ≤ maxInt8) :
    s.matching (capped spec) = s.matching spec := by
  show (capped spec).limited ((spec.directed (s.members spec.stream)).filter (s.admitted spec)) =
    spec.limited ((spec.directed (s.members spec.stream)).filter (s.admitted spec))
  have hlength : ((spec.directed (s.members spec.stream)).filter (s.admitted spec)).length ≤
      (s.members spec.stream).length := by
    refine Nat.le_trans (List.length_filter_le _ _) (Nat.le_of_eq ?_)
    unfold ReadSpec.directed
    cases spec.direction with
    | forward => rfl
    | backward => exact List.length_reverse
  unfold capped ReadSpec.limited
  cases hlimit : spec.limit with
  | none => rfl
  | some k =>
      show List.take (min k maxInt8) _ = List.take k _
      obtain h | h := h
      · rw [Nat.min_eq_left (h k hlimit)]
      · rw [← List.take_take, List.take_of_length_le (Nat.le_trans hlength h)]

/-! ## A store with these rows -/

/-- The body that a row keeps. -/
def EventRow.body (e : EventRow) : StoredEvent :=
  ⟨e.name, e.payload, (Headers.ofMetadata e.metadata).toOption.getD .empty, e.createdAt⟩

theorem EventRow.keeps_body (e : EventRow) : e.Keeps e.body where
  name := rfl
  payload := rfl
  createdAt := rfl
  headers headers h := by rw [body, h]; rfl

namespace Tables

/-- The memberships of a stream in the order of their versions. -/
def membersInOrder (t : Tables) (stream : String) : List Membership :=
  (t.membersOf stream).mergeSort fun a b => a.version ≤ b.version

/-- The tables as a store. -/
def toStore (t : Tables) : Store where
  events := .ofList (t.events.map fun e => (e.eventId, e.body))
  streams := .ofList (t.memberships.map fun m => (m.row.stream, t.membersInOrder m.row.stream))
  lastPosition := t.lastPosition

theorem members_toStore (t : Tables) (stream : String) :
    t.toStore.members stream = t.membersInOrder stream := by
  have honly : ∀ entry ∈ t.memberships.map fun m => (m.row.stream, t.membersInOrder m.row.stream),
      entry.1 = stream → entry.2 = t.membersInOrder stream := by
    intro entry hentry heq
    obtain ⟨m, -, rfl⟩ := List.mem_map.mp hentry
    exact congrArg t.membersInOrder heq
  have hkeys : (t.memberships.map fun m => (m.row.stream, t.membersInOrder m.row.stream)).map
      Prod.fst = t.memberships.map fun m => m.row.stream := List.map_map
  rw [Store.members, toStore, Dictionary.get?_ofList honly, hkeys]
  by_cases hmem : stream ∈ t.memberships.map fun m => m.row.stream
  · rw [if_pos hmem]
    rfl
  · have hnone : t.membersOf stream = [] := by
      rw [membersOf, List.map_eq_nil_iff, List.filter_eq_nil_iff]
      intro m hm heq
      exact hmem (List.mem_map.mpr ⟨m, hm, of_decide_eq_true heq⟩)
    rw [if_neg hmem, membersInOrder, hnone, List.mergeSort_nil]
    rfl

/-- Unique versions are in strict order when they are sorted. -/
theorem Keyed.pairwise_membersInOrder {t : Tables} (keyed : t.Keyed) (stream : String) :
    (t.membersInOrder stream).Pairwise fun a b => a.version < b.version := by
  have hsorted : (t.membersInOrder stream).Pairwise fun a b => a.version ≤ b.version :=
    pairwise_mergeSort_of (R := fun a b : Membership => a.version ≤ b.version)
      (fun _ _ _ => Int.le_trans) (fun _ _ => Int.le_total _ _) _
  have hkeys : ((t.memberships.filter fun m => m.row.stream = stream).map fun m =>
      (m.row.stream, m.row.version)).Nodup :=
    keyed.versions.sublist (List.filter_sublist.map _)
  have hnodup : ((t.membersInOrder stream).map Membership.version).Nodup := by
    rw [membersInOrder, ((List.mergeSort_perm _ _).map _).nodup_iff, membersOf, List.map_map]
    refine List.pairwise_map.mpr (List.Pairwise.imp_of_mem ?_ (List.pairwise_map.mp hkeys))
    intro a b ha hb hne heq
    have hstream : a.row.stream = b.row.stream :=
      (of_decide_eq_true (List.mem_filter.mp ha).2).trans
        (of_decide_eq_true (List.mem_filter.mp hb).2).symm
    exact hne (Prod.ext hstream heq)
  exact (hsorted.and (List.pairwise_map.mp hnodup)).imp fun h => lt_of_le_of_ne h.1 h.2

theorem sameRows_toStore {t : Tables} (keyed : t.Keyed) : SameRows t.toStore t where
  members m := by
    rw [members_toStore, membersInOrder, List.mem_mergeSort, mem_membersOf]
    rfl
  ascending stream := by
    rw [members_toStore]
    exact keyed.pairwise_membersInOrder stream
  bodies m hm e he hid := by
    refine ⟨e.body, ?_, e.keeps_body⟩
    have honly : ∀ entry ∈ t.events.map fun e => (e.eventId, e.body),
        entry.1 = e.eventId → entry.2 = e.body := by
      intro entry hentry heq
      obtain ⟨other, hother, rfl⟩ := List.mem_map.mp hentry
      exact congrArg EventRow.body (keyed.event_eq hm hother he (heq.trans hid) hid)
    rw [toStore, Dictionary.get?_ofList honly, List.map_map]
    exact if_pos (List.mem_map.mpr ⟨e, he, rfl⟩)

end Tables

/-- Take any tables in which versions are unique in each stream and every membership is about
exactly one event, any store that holds the same rows, and there is one, and any read.

Every placeholder of the SELECT stands for the value of its clause. Whatever rows SQL may
return for it, and the server of `Tables.rowsOf` returns some of them, show the memberships
that the store goes through for the same read, in the same order; the read sends nothing but
this SELECT and answers with the envelopes of these rows, if all headers can be read back, and
the count sends nothing but its SELECT and answers with how many there are. The limit counts as
the largest number of eight bytes if it is larger, which makes no difference to a stream that
is not longer than that. -/
theorem selects_what_read_means (ε : Type) {t : Tables} (keyed : t.Keyed) :
    (∃ s, SameRows s t) ∧ ∀ s, SameRows s t → ∀ spec : ReadSpec,
      (Select.ofSpec spec).Binds spec ∧
      t.Returns (.ofSpec spec) (t.rowsOf (.ofSpec spec)) ∧
      (∀ rows, t.Returns (.ofSpec spec) rows →
        (rows.map fun row => row.1.place) = s.matching (capped spec) ∧
        (count spec).follow [.table (Tables.single "count" .int8 [.int rows.length])] =
          ⟨[.statement (.count (.ofSpec spec))], .ok (s.matching (capped spec)).length, []⟩ ∧
        ((∀ e ∈ t.events, ∃ headers, Headers.ofMetadata e.metadata = .ok headers) →
          (query spec : Program (List (Envelope ε))).follow
              [.table ⟨Tables.readColumns, rows.map Tables.readCells⟩] =
            ⟨[.statement (.select (.ofSpec spec))], .ok (s.query (capped spec)), []⟩)) ∧
      (((∀ k, spec.limit = some k → k ≤ maxInt8) ∨ (s.members spec.stream).length ≤ maxInt8) →
        s.matching (capped spec) = s.matching spec) := by
  refine ⟨⟨t.toStore, Tables.sameRows_toStore keyed⟩, fun s h spec => ?_⟩
  refine ⟨Select.binds_ofSpec spec, t.returns_rowsOf _, fun rows hrows => ?_, matching_capped⟩
  exact ⟨h.places_of_returns keyed (Select.binds_ofSpec spec) hrows,
    h.follow_count keyed hrows, h.follow_query keyed hrows⟩

/-- A stream with a gap in its versions whose rows came in out of order, and an event that is
linked to another stream. The read goes backward, with two of the five filters and a limit. -/
theorem selects_what_read_means_backward :
    let row (n : Nat) : EventRow := ⟨.ofNat n, "Noted", "1", "", .epoch⟩
    let t : Tables :=
      { events := [row 1, row 2, row 3, row 4]
        heads := .empty
        memberships := [⟨5, ⟨"s", 7, .ofNat 2⟩⟩, ⟨2, ⟨"s", 3, .ofNat 1⟩⟩, ⟨9, ⟨"t", 3, .ofNat 1⟩⟩,
          ⟨4, ⟨"s", 4, .ofNat 3⟩⟩]
        lastPosition := 9 }
    let spec : ReadSpec :=
      { ReadSpec.whole "s" with
        fromPosition := some 3
        eventIds := some [.ofNat 1, .ofNat 2, .ofNat 3]
        direction := .backward
        limit := some 2 }
    t.Keyed ∧ SameRows t.toStore t ∧
      (Select.ofSpec spec).Binds spec ∧
      (t.rowsOf (.ofSpec spec)).map (fun row => row.1.place) = t.toStore.matching spec ∧
      t.toStore.matching spec = [⟨5, 7, .ofNat 2⟩, ⟨4, 4, .ofNat 3⟩] := by
  intro row t spec
  have hkeyed : t.Keyed := by
    have hone : ∀ m ∈ t.memberships,
        (t.events.filter fun e => e.eventId = m.row.eventId).length = 1 := by decide
    exact ⟨by decide, fun m hm => List.length_eq_one_iff.mp (hone m hm)⟩
  have hstream : t.toStore.members "s" =
      [⟨2, 3, .ofNat 1⟩, ⟨4, 4, .ofNat 3⟩, ⟨5, 7, .ofNat 2⟩] := by
    have hperm : (t.membersInOrder "s").Perm
        [⟨2, 3, .ofNat 1⟩, ⟨4, 4, .ofNat 3⟩, ⟨5, 7, .ofNat 2⟩] :=
      (List.mergeSort_perm _ _).trans (by decide)
    have hordered : (t.membersInOrder "s").Pairwise (before .forward) :=
      hkeyed.pairwise_membersInOrder "s"
    rw [Tables.members_toStore]
    exact hperm.eq_of_pairwise' hordered (by unfold before; decide)
  have hrows : SameRows t.toStore t := Tables.sameRows_toStore hkeyed
  obtain ⟨-, hall⟩ := selects_what_read_means OrderEvent hkeyed
  obtain ⟨hbinds, hreturns, hplaces, hcapped⟩ := hall t.toStore hrows spec
  have hsmall : ∀ k, spec.limit = some k → k ≤ maxInt8 := by
    intro k hk
    cases hk
    decide
  refine ⟨hkeyed, hrows, hbinds, ?_, ?_⟩
  · exact (hplaces _ hreturns).1.trans (hcapped (.inl hsmall))
  · rw [Store.matching, show t.toStore.members spec.stream = _ from hstream]
    decide

end EventLog.Postgres
