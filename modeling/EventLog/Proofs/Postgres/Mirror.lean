/-
# The tables beside the store in memory

`Mirrors s t` says that the tables `t` hold what the store `s` holds: the same events, each
stream's head at its last version and its memberships in order, and the same last position.
The two keep these things differently. In the store the last membership of a stream is its
version, in the tables a head says so; a store that forgets a stream has no list, tables
have neither head nor rows. What is compared are therefore the views, not the data.

Each operation of the database answers as the store does and leaves tables that mirror the
store's: lookups in `Mirrors.runOn_*`, writes through `Write.Follows`. A write that fails,
or that has nothing to write, has put a head in place by then, and it is the end of its
transaction that takes it away again.
-/

import EventLog.Proofs.Postgres.Conversations
import EventLog.Proofs.Postgres.Writes
import EventLog.Proofs.Store.Places
import EventLog.Proofs.Store.Reading
import Mathlib.Data.List.Find

namespace EventLog.Postgres

structure Mirrors (s : Store) (t : Tables) : Prop where
  sound : s.Sound
  events : ∀ id, t.knows id = s.hasEvent id
  heads : ∀ stream, t.headOf stream = s.lastVersion stream
  members : ∀ stream, t.membersOf stream = s.members stream
  lastPosition : t.lastPosition = s.lastPosition

/-! ## Searching rows -/

namespace Tables

variable {α : Type} {key : α → Int} {list : List α}

theorem least_eq_none_iff : least key list = none ↔ list = [] := by
  cases list with
  | nil => simp [least]
  | cons a rest =>
      rw [least]
      cases least key rest with
      | none => simp
      | some b => by_cases h : key b < key a <;> simp [h]

/-- The least row is one of the rows, and none is smaller. -/
theorem le_of_least {a : α} (h : least key list = some a) :
    a ∈ list ∧ ∀ b ∈ list, key a ≤ key b := by
  induction list generalizing a with
  | nil => cases h
  | cons first rest ih =>
      rw [least] at h
      cases hrest : least key rest with
      | none =>
          rw [hrest] at h
          cases h
          rw [least_eq_none_iff.mp hrest]
          simp
      | some best =>
          rw [hrest] at h
          obtain ⟨hmem, hbest⟩ := ih hrest
          dsimp only at h
          by_cases hlt : key best < key first
          · rw [if_pos hlt] at h
            cases h
            refine ⟨List.mem_cons_of_mem _ hmem, fun b hb => ?_⟩
            rcases List.mem_cons.mp hb with rfl | hb
            · exact Int.le_of_lt hlt
            · exact hbest b hb
          · rw [if_neg hlt] at h
            cases h
            refine ⟨List.mem_cons_self, fun b hb => ?_⟩
            rcases List.mem_cons.mp hb with rfl | hb
            · exact Int.le_refl _
            · have := hbest b hb
              omega

/-- What is seen of the least row, if the key decides what is seen. -/
theorem map_least_eq_some_iff {β : Type} {view : α → β} {c : β}
    (decides : ∀ a ∈ list, ∀ b ∈ list, key a = key b → view a = view b) :
    (least key list).map view = some c ↔
      ∃ a ∈ list, view a = c ∧ ∀ b ∈ list, key a ≤ key b := by
  rw [Option.map_eq_some_iff]
  constructor
  · rintro ⟨a, ha, hview⟩
    obtain ⟨hmem, hleast⟩ := le_of_least ha
    exact ⟨a, hmem, hview, hleast⟩
  · rintro ⟨a, ha, hview, hleast⟩
    cases hfound : least key list with
    | none =>
        rw [least_eq_none_iff.mp hfound] at ha
        cases ha
    | some b =>
        obtain ⟨hmem, hbest⟩ := le_of_least hfound
        have heq : key b = key a := Int.le_antisymm (hbest a ha) (hleast b hmem)
        exact ⟨b, rfl, (decides b hmem a ha heq).trans hview⟩

end Tables

/-- A reply of at most one value. -/
theorem runOn_fetchOptional_single {α β : Type} {server after : Server} {statement : Statement}
    {decode : Row → Except Failure α} {name : String} {type : ColumnType} {found : Option β}
    {cell : β → Cell} {value : β → α}
    (h : server.carryOut statement =
      (.table (Tables.single name type (found.map cell).toList), after))
    (decodes : ∀ b, decode [(⟨name, type⟩, cell b)] = .ok (value b)) :
    (Program.fetchOptional statement decode).runOn server = (.ok (found.map value), after) := by
  cases found with
  | none => exact Program.runOn_fetchOptional_none h rfl
  | some b => exact Program.runOn_fetchOptional_some h rfl (decodes b)

namespace Mirrors

variable {s : Store} {t : Tables} (h : Mirrors s t)

theorem empty : Mirrors .empty .empty :=
  ⟨Store.Sound.empty, fun _ => rfl, fun _ => rfl, fun _ => rfl, rfl⟩

include h

/-! ## Lookups -/

theorem mem_memberships {m : StoredMembership} :
    m ∈ t.memberships ↔ m.place ∈ s.members m.row.stream := by
  rw [← h.members, Tables.mem_membersOf]
  rfl

theorem runOn_hasEvent (id : Uuid) :
    (hasEvent id).runOn ⟨t, none⟩ = (.ok (s.hasEvent id), ⟨t, none⟩) := by
  rw [← h.events]
  exact Program.runOn_fetchOne rfl rfl rfl

theorem runOn_streamOf (id : Uuid) :
    (streamOf id).runOn ⟨t, none⟩ = (.ok (s.streamOf id), ⟨t, none⟩) := by
  have hsame : (Tables.least StoredMembership.position (t.occurrencesOf id)).map
      (fun m => m.row.stream) = s.streamOf id := by
    have hmem : ∀ m, m ∈ t.occurrencesOf id ↔
        m.place ∈ s.members m.row.stream ∧ m.row.eventId = id := by
      intro m
      rw [Tables.occurrencesOf, List.mem_filter, h.mem_memberships, decide_eq_true_iff]
    apply Option.ext
    intro stream
    rw [h.sound.streamOf_eq_some_iff, Tables.map_least_eq_some_iff]
    · constructor
      · rintro ⟨m, hm, rfl, hleast⟩
        obtain ⟨hplace, hid⟩ := (hmem m).mp hm
        refine ⟨m.place, hplace, hid, fun other b hb hb' => ?_⟩
        exact hleast (.ofPlace other b) ((hmem _).mpr ⟨hb, hb'⟩)
      · rintro ⟨a, ha, hid, hleast⟩
        refine ⟨.ofPlace stream a, (hmem _).mpr ⟨ha, hid⟩, rfl, fun m hm => ?_⟩
        obtain ⟨hplace, hid'⟩ := (hmem m).mp hm
        exact hleast m.row.stream m.place hplace hid'
    · intro m hm m' hm' heq
      exact h.sound.stream_eq_of_position_eq ((hmem m).mp hm).1 ((hmem m').mp hm').1 heq
  rw [← hsame]
  exact runOn_fetchOptional_single rfl fun _ => rfl

theorem runOn_versionIn (stream : String) (id : Uuid) :
    (versionIn stream id).runOn ⟨t, none⟩ = (.ok (s.versionIn stream id), ⟨t, none⟩) := by
  have hsame : (Tables.least (fun m => -m.row.version)
      ((t.occurrencesOf id).filter fun m => m.row.stream = stream)).map
        (fun m => m.row.version) = s.versionIn stream id := by
    have hmem : ∀ m, m ∈ (t.occurrencesOf id).filter (fun m => m.row.stream = stream) ↔
        m.place ∈ s.members stream ∧ m.row.eventId = id ∧ m.row.stream = stream := by
      intro m
      rw [List.mem_filter, Tables.occurrencesOf, List.mem_filter, h.mem_memberships,
        decide_eq_true_iff, decide_eq_true_iff]
      constructor
      · rintro ⟨⟨hplace, hid⟩, hstream⟩
        exact ⟨hstream ▸ hplace, hid, hstream⟩
      · rintro ⟨hplace, hid, hstream⟩
        exact ⟨⟨hstream.symm ▸ hplace, hid⟩, hstream⟩
    apply Option.ext
    intro version
    rw [h.sound.versionIn_eq_some_iff, Tables.map_least_eq_some_iff]
    · constructor
      · rintro ⟨m, hm, rfl, hleast⟩
        obtain ⟨hplace, hid, -⟩ := (hmem m).mp hm
        refine ⟨m.place, hplace, hid, rfl, fun b hb hb' => ?_⟩
        have hle := hleast (.ofPlace stream b) ((hmem _).mpr ⟨hb, hb', rfl⟩)
        exact Int.neg_le_neg_iff.mp hle
      · rintro ⟨a, ha, hid, rfl, hhighest⟩
        refine ⟨.ofPlace stream a, (hmem _).mpr ⟨ha, hid, rfl⟩, rfl, fun m hm => ?_⟩
        obtain ⟨hplace, hid', -⟩ := (hmem m).mp hm
        exact Int.neg_le_neg (hhighest m.place hplace hid')
    · intro m _ m' _ heq
      exact Int.neg_inj.mp heq
  rw [← hsame]
  exact runOn_fetchOptional_single rfl fun _ => rfl

theorem runOn_inStream (stream : String) (id : Uuid) :
    (inStream stream id).runOn ⟨t, none⟩ = (.ok (s.inStream stream id), ⟨t, none⟩) := by
  rw [inStream, Program.runOn_bind_of_ok (h.runOn_versionIn stream id), Program.runOn_pure]
  rfl

theorem runOn_lastVersion (stream : String) :
    (lastVersion stream).runOn ⟨t, none⟩ = (.ok (s.lastVersion stream), ⟨t, none⟩) := by
  have hfetch : (Program.fetchOptional (.headVersion stream) fun row => row.at? 0 int8).runOn
      ⟨t, none⟩ = (.ok ((t.heads.get? stream).map id), ⟨t, none⟩) :=
    runOn_fetchOptional_single rfl fun _ => rfl
  rw [lastVersion, Program.runOn_bind_of_ok hfetch, Program.runOn_pure, ← h.heads,
    Option.map_id]
  rfl

/-! ## Tables that change as the store does -/

/-- A head that is put in place shows nothing that was not there. -/
theorem withHead (stream : String) : Mirrors s (t.withHead stream) where
  sound := h.sound
  events := h.events
  heads other := (Tables.headOf_withHead t stream other).trans (h.heads other)
  members := h.members
  lastPosition := h.lastPosition

/-- Versions of a mirrored stream are at most its head. -/
theorem version_le (stream : String) :
    ∀ a ∈ t.membersOf stream, a.version ≤ s.lastVersion stream := by
  intro a ha
  rw [h.members] at ha
  obtain ⟨i, hi⟩ := List.mem_iff_getElem?.mp ha
  have hversion := h.sound.version_of_getElem? hi
  have hlt := (List.getElem?_eq_some_iff.mp hi).1
  rw [h.sound.lastVersion_eq]
  omega

/-- Memberships put at the end of a stream, the head moved behind them. -/
theorem extend {stream : String} {ids : List Uuid} (known : ∀ id ∈ ids, s.hasEvent id = true)
    (there : t.heads.contains stream = true) :
    Mirrors (s.extend stream (s.lastVersion stream) ids)
      ((t.grownBy stream (s.lastVersion stream) ids).withHeadAt stream
        (s.lastVersion stream + ids.length)) := by
  have hsound := h.sound.extend stream known
  have hmembers : ∀ other, (t.grownBy stream (s.lastVersion stream) ids).membersOf other =
      (s.extend stream (s.lastVersion stream) ids).members other := by
    intro other
    rw [Tables.membersOf_grownBy, Store.members_extend, h.members, h.members, h.lastPosition]
  have hhead : (t.grownBy stream (s.lastVersion stream) ids).withHeadAt stream
      (s.lastVersion stream + ids.length) =
      { t.grownBy stream (s.lastVersion stream) ids with
        heads := t.heads.insert stream (s.lastVersion stream + ids.length) } := if_pos there
  refine ⟨hsound, ?events, ?heads, ?members, ?lastPosition⟩
  case events =>
    intro id
    rw [hhead]
    exact h.events id
  case heads =>
    intro other
    have hgrown : (t.grownBy stream (s.lastVersion stream) ids).heads.contains stream = true :=
      there
    rw [Tables.headOf_withHeadAt hgrown, hsound.lastVersion_eq, Store.members_extend]
    by_cases heq : stream = other
    · rw [if_pos heq, if_pos heq, List.length_append, Store.length_membersFrom,
        h.sound.lastVersion_eq]
      push_cast
      rfl
    · rw [if_neg heq, if_neg heq, ← h.sound.lastVersion_eq]
      exact h.heads other
  case members =>
    rw [hhead]
    exact hmembers
  case lastPosition =>
    rw [hhead, Store.lastPosition_extend, ← h.lastPosition]
    rfl

theorem without (stream : String) : Mirrors (s.without stream) (t.without stream) where
  sound := h.sound.without stream
  events := h.events
  heads other := by
    rw [Tables.headOf_without, (h.sound.without stream).lastVersion_eq, Store.members_without]
    by_cases heq : stream = other
    · rw [if_pos heq, if_pos heq]
      rfl
    · rw [if_neg heq, if_neg heq, ← h.sound.lastVersion_eq]
      exact h.heads other
  members other := by rw [Tables.membersOf_without, Store.members_without, h.members]
  lastPosition := h.lastPosition

variable {ε : Type} [EventType ε]

/-- Bodies kept in the store and inserted as rows. -/
theorem keep (now : Timestamp) (staged : List (Staged ε)) :
    Mirrors (s.keep now staged) (t.withEvents (staged.map (eventRow now))) where
  sound := h.sound.keep now staged
  events id := by
    have hids : (staged.map (eventRow now)).map EventRow.eventId =
        staged.map Staged.eventId := by
      rw [List.map_map]
      rfl
    rw [Tables.knows_withEvents, h.events, hids, Bool.eq_iff_iff, Store.hasEvent_keep,
      Bool.or_eq_true, decide_eq_true_iff, or_comm]
  heads := h.heads
  members := h.members
  lastPosition := h.lastPosition

end Mirrors

/-! ## Writes -/

/-- The work of a link in its transaction once all its events are known to be there. -/
def linkKnown (stream : String) (ids : List Uuid) (expected : Option Int) :
    Program (Program.Verdict Int) := do
  let current ← lockHead stream expected
  if ids.isEmpty then return .abandon current
  else
    let places ← insertMembers stream current ids
    return .commit (current + places.length)

/-- A write to the database that starts from tables `t` goes as a write to the store goes:
with the same error and the same tables, or with the same answer and tables that mirror the
new store. -/
def Write.Follows {α : Type} (t : Tables) (outcome : Except Error α × Server) :
    Except Error (α × Store) → Prop
  | .error e => outcome = (.error e, ⟨t, none⟩)
  | .ok (answer, after) => ∃ u, outcome = (.ok answer, ⟨u, none⟩) ∧ Mirrors after u

namespace Mirrors

variable {ε : Type} [EventType ε] {s : Store} {t : Tables} (h : Mirrors s t)

include h

omit [EventType ε] in
theorem follows_delete (stream : String) :
    Write.Follows t ((delete stream).runOn ⟨t, none⟩)
      ((s.delete stream).map fun after => ((), after)) := by
  rw [Store.delete_eq, delete]
  by_cases hstream : stream = ""
  · rw [if_pos hstream, requireStreamId, if_pos hstream]
    rfl
  · rw [if_neg hstream, requireStreamId, if_neg hstream]
    refine ⟨t.without stream, ?_, h.without stream⟩
    rw [Program.runOn_bind_of_ok (Program.runOn_ofExcept _ _)]
    exact Program.runOn_transaction_of_commit rfl

omit h in
/-- The statement that asks which of these events are there. -/
theorem runOn_knownEvents (t u : Tables) (ids : List Uuid) :
    (Program.fetchAll (.knownEvents ids) Failure.toError fun row => row.at? 0 uuidValue).runOn
        ⟨t, some u⟩ =
      (.ok ((u.events.filter fun e => ids.contains e.eventId).map EventRow.eventId),
        ⟨t, some u⟩) := by
  have hreply : Server.carryOut ⟨t, some u⟩ (.knownEvents ids) =
      (.table (Tables.single "event_id" .uuid
        ((u.events.filter fun e => ids.contains e.eventId).map fun e => .uuid e.eventId)),
        ⟨t, some u⟩) := rfl
  refine Program.runOn_fetchAll hreply ?_
  unfold Table.labelled Tables.single
  dsimp only
  rw [List.map_map, List.map_map]
  exact Except.mapM_map_of_ok fun e _ => rfl

omit [EventType ε] in
/-- The first unknown identifier of a link is found by asking for all at once. -/
theorem find?_knownEvents (ids : List Uuid) :
    (ids.find? fun id =>
      !((t.events.filter fun e => ids.contains e.eventId).map EventRow.eventId).contains id) =
      ids.find? fun id => !s.hasEvent id := by
  apply List.find?_congr
  intro id hid
  congr 1
  rw [← h.events, Tables.knows, Bool.eq_iff_iff, List.contains_iff_mem, List.mem_map,
    List.any_eq_true]
  constructor
  · rintro ⟨e, he, heq⟩
    exact ⟨e, (List.mem_filter.mp he).1, decide_eq_true heq⟩
  · rintro ⟨e, he, heq⟩
    have heq := of_decide_eq_true heq
    refine ⟨e, List.mem_filter.mpr ⟨he, ?_⟩, heq⟩
    rw [heq]
    exact List.contains_iff_mem.mpr hid

omit [EventType ε] in
/-- The empty batch changes the data of the store and nothing that is seen of it. -/
theorem extend_nil (stream : String) :
    Mirrors (s.extend stream (s.lastVersion stream) []) t := by
  have hmembers : ∀ other,
      (s.extend stream (s.lastVersion stream) []).members other = s.members other := by
    intro other
    rw [Store.members_extend]
    by_cases heq : stream = other
    · rw [if_pos heq, heq]
      exact List.append_nil _
    · exact if_neg heq
  refine ⟨h.sound.extend stream (by simp), h.events, fun other => ?_, fun other => ?_, ?_⟩
  · rw [Store.lastVersion, hmembers]
    exact h.heads other
  · rw [hmembers]
    exact h.members other
  · rw [Store.lastPosition_extend, h.lastPosition]
    exact (Int.add_zero _).symm

omit [EventType ε] in
theorem follows_linkKnown (stream : String) {ids : List Uuid} (expected : Option Int)
    (known : ∀ id ∈ ids, s.hasEvent id = true) :
    Write.Follows t ((Program.transaction (linkKnown stream ids expected)).runOn ⟨t, none⟩)
      (if versionMatches expected (s.lastVersion stream) then
        .ok (s.lastVersion stream + ids.length, s.extend stream (s.lastVersion stream) ids)
      else .error (.conflict stream expected (s.lastVersion stream))) := by
  have hlocked := runOn_lockHead t t stream expected
  rw [h.heads] at hlocked
  by_cases hversion : versionMatches expected (s.lastVersion stream)
  · rw [if_pos hversion] at hlocked
    rw [if_pos hversion]
    by_cases hempty : ids = []
    · -- Nothing to link: the head that was made is given up with the transaction.
      subst hempty
      refine ⟨t, ?_, h.extend_nil stream⟩
      refine Program.runOn_transaction_of_abandon (u := t.withHead stream) ?_
      rw [linkKnown, Program.runOn_bind_of_ok hlocked]
      simp [Program.runOn_pure]
    · have hhead := h.withHead stream
      refine ⟨_, ?_, hhead.extend known (Tables.contains_withHead t stream)⟩
      refine Program.runOn_transaction_of_commit ?_
      have hinserted := runOn_insertMembers (t := t) (hhead.version_le stream)
        fun id hid => (hhead.events id).trans (known id hid)
      rw [linkKnown, Program.runOn_bind_of_ok hlocked, if_neg (by simpa using hempty),
        Program.runOn_bind_of_ok hinserted, Program.runOn_pure]
      simp
  · rw [if_neg hversion] at hlocked
    rw [if_neg hversion]
    refine Program.runOn_transaction_of_error (u := t.withHead stream) ?_
    rw [linkKnown, Program.runOn_bind_of_error hlocked]

omit [EventType ε] in
theorem follows_link (stream : String) (ids : List Uuid) (expected : Option Int) :
    Write.Follows t ((link stream ids expected).runOn ⟨t, none⟩)
      (s.link stream ids expected) := by
  rw [Store.link_eq, link]
  by_cases hstream : stream = ""
  · rw [if_pos hstream, requireStreamId, if_pos hstream]
    rfl
  rw [if_neg hstream, requireStreamId, if_neg hstream,
    Program.runOn_bind_of_ok (Program.runOn_ofExcept _ _)]
  have hasked := runOn_knownEvents t t ids
  have hsame := h.find?_knownEvents ids
  cases hmissing : ids.find? fun id => !s.hasEvent id with
  | some missing =>
      refine Program.runOn_transaction_of_error (u := t) ?_
      rw [Program.runOn_bind_of_ok hasked, hsame, hmissing]
      rfl
  | none =>
      have hknown : ∀ id ∈ ids, s.hasEvent id = true := by simpa using hmissing
      have hfollows := h.follows_linkKnown stream expected hknown
      rw [Program.runOn_transaction] at hfollows ⊢
      rw [Program.runOn_bind_of_ok hasked, hsame, hmissing]
      exact hfollows

/-- A batch whose identifiers are new is stored. -/
theorem follows_appendPrepared {draw : Draw} {stream : String} {staged : List (Staged ε)}
    (expected : Option Int) (accepts : s.Accepts staged) :
    Write.Follows t
      ((Program.transaction (appendPrepared draw stream staged expected)).runOn ⟨t, none⟩)
      (if versionMatches expected (s.lastVersion stream) then
        .ok (s.placed stream staged, s.grown draw.now stream staged)
      else .error (.conflict stream expected (s.lastVersion stream))) := by
  have hlocked := runOn_lockHead t t stream expected
  rw [h.heads] at hlocked
  by_cases hversion : versionMatches expected (s.lastVersion stream)
  · rw [if_pos hversion] at hlocked
    rw [if_pos hversion]
    by_cases hempty : staged = []
    · subst hempty
      refine ⟨t, ?_, h.extend_nil stream⟩
      refine Program.runOn_transaction_of_abandon (u := t.withHead stream) ?_
      rw [appendPrepared, Program.runOn_bind_of_ok hlocked]
      rfl
    · have hhead := h.withHead stream
      have hkept := hhead.keep draw.now staged
      have hids : (staged.map (eventRow draw.now)).map EventRow.eventId =
          staged.map Staged.eventId := by
        rw [List.map_map]
        rfl
      have hunknown : ∀ row ∈ staged.map (eventRow draw.now),
          (t.withHead stream).knows row.eventId = false := fun row hrow =>
        (hhead.events _).trans (accepts.unknown _ (hids ▸ List.mem_map_of_mem hrow))
      have hstored := runOn_insertEvents (t := t) hunknown (hids ▸ accepts.distinct)
      have hknown : ∀ id ∈ staged.map Staged.eventId, (s.keep draw.now staged).hasEvent id = true :=
        fun id hid => Store.hasEvent_keep.mpr (.inl hid)
      have hinserted := runOn_insertMembers (t := t) (hkept.version_le stream)
        fun id hid => (hkept.events id).trans (hknown id hid)
      have hlast : (s.keep draw.now staged).lastVersion stream = s.lastVersion stream := rfl
      rw [hkept.lastPosition, hlast] at hinserted
      refine ⟨_, ?_, hkept.extend hknown (Tables.contains_withHead t stream)⟩
      refine Program.runOn_transaction_of_commit ?_
      rw [appendPrepared, Program.runOn_bind_of_ok hlocked, if_neg (by simpa using hempty),
        Program.runOn_bind_of_ok hstored, Program.runOn_bind_of_ok hinserted, Program.runOn_pure,
        List.zipWith_map_right, hlast]
      rfl
  · rw [if_neg hversion] at hlocked
    rw [if_neg hversion]
    refine Program.runOn_transaction_of_error (u := t.withHead stream) ?_
    rw [appendPrepared, Program.runOn_bind_of_error hlocked]

theorem follows_append {draw : Draw} (stream : String) {batch : List (Envelope ε)}
    (expected : Option Int) (fresh : draw.FreshFor s batch.length) :
    Write.Follows t ((append draw stream batch expected).runOn ⟨t, none⟩)
      (s.append draw stream batch expected) := by
  rw [Store.append_eq]
  by_cases hstream : stream = ""
  · rw [if_pos hstream, append, requireStreamId, if_pos hstream]
    rfl
  rw [if_neg hstream]
  cases hstaged : Staged.ofEnvelopes draw 0 batch with
  | error e =>
      rw [append, requireStreamId, if_neg hstream, hstaged]
      rfl
  | ok staged =>
      rw [append_eq hstream hstaged]
      exact h.follows_appendPrepared expected (Store.accepts_of_freshFor fresh hstaged)

end Mirrors

end EventLog.Postgres
