/-
# Loading and saving over the log in memory

A repository whose backend is the store in memory: the store answers at once, so neither a
timeout nor the clock plays a part. A load is the replay of a stream and a save is one
append; both are summed up here in terms of the store and of nothing else, `Store.replay`
for what a list of memberships adds up to and `Store.append` for all that a save can come to.
Listeners and metrics go their own way: they change the world, not the store.

What a repository makes of an answer does not depend on who has given it, so that part is
said of any backend (`Repository.load_of_query`, `Repository.save_of_ok`).
-/

import EventLog.Proofs.Aggregate.Applying
import EventLog.Proofs.Store.Reading
import EventLog.Repository.Basic

namespace EventLog

variable {ε η ω σ : Type} [EventType ε]

/-- The state that these memberships add up to, each read from the body behind it; `none`
if a body is missing, cannot be decoded or is refused. -/
def Store.replay (catalog : EventCatalog ε) (type : AggregateType ε σ) (s : Store) (state : σ) :
    List Membership → Option σ
  | [] => some state
  | member :: rest => do
    let body ← s.events.get? member.eventId
    let event ← (catalog.decode body.name body.payload).toOption
    let state ← (type.transitions.apply event state).toOption
    s.replay catalog type state rest

namespace Store

variable {catalog : EventCatalog ε} {type : AggregateType ε σ} {s after : Store} {state : σ}

/-- A replay goes through the first part and then through the second. -/
theorem replay_append (state : σ) (first second : List Membership) :
    s.replay catalog type state (first ++ second) =
      (s.replay catalog type state first).bind fun middle =>
        s.replay catalog type middle second := by
  induction first generalizing state with
  | nil => rfl
  | cons member rest ih =>
      rw [List.cons_append, replay, replay]
      cases s.events.get? member.eventId with
      | none => rfl
      | some body =>
          dsimp only [Option.bind_eq_bind, Option.bind_some]
          cases (catalog.decode body.name body.payload).toOption with
          | none => rfl
          | some event =>
              dsimp only [Option.bind_some]
              cases (type.transitions.apply event state).toOption with
              | none => rfl
              | some next => exact ih next

/-- A replay depends on the bodies of its memberships only. -/
theorem replay_congr {members : List Membership}
    (h : ∀ member ∈ members, after.events.get? member.eventId = s.events.get? member.eventId)
    (state : σ) :
    after.replay catalog type state members = s.replay catalog type state members := by
  induction members generalizing state with
  | nil => rfl
  | cons member rest ih =>
      have hrest : ∀ state, after.replay catalog type state rest =
          s.replay catalog type state rest :=
        ih fun other hother => h other (List.mem_cons_of_mem _ hother)
      simp only [replay, h member List.mem_cons_self, hrest]

/-- A replay goes on where its first membership is read, decoded and applied. -/
theorem replay_cons_eq_some_iff {member : Membership} {rest : List Membership} {final : σ} :
    s.replay catalog type state (member :: rest) = some final ↔
      ∃ body event next, s.events.get? member.eventId = some body ∧
        catalog.decode body.name body.payload = .ok event ∧
        type.transitions.apply event state = .ok next ∧
        s.replay catalog type next rest = some final := by
  rw [replay]
  constructor
  · intro h
    obtain ⟨body, hbody, h⟩ := Option.bind_eq_some_iff.mp h
    obtain ⟨event, hevent, h⟩ := Option.bind_eq_some_iff.mp h
    obtain ⟨next, hnext, h⟩ := Option.bind_eq_some_iff.mp h
    exact ⟨body, event, next, hbody, Except.toOption_eq_some_iff.mp hevent,
      Except.toOption_eq_some_iff.mp hnext, h⟩
  · rintro ⟨body, event, next, hbody, hevent, hnext, h⟩
    exact Option.bind_eq_some_iff.mpr ⟨body, hbody,
      Option.bind_eq_some_iff.mpr ⟨event, Except.toOption_eq_some_iff.mpr hevent,
        Option.bind_eq_some_iff.mpr ⟨next, Except.toOption_eq_some_iff.mpr hnext, h⟩⟩⟩

end Store

namespace Aggregate

variable {type : AggregateType ε σ}

/-- The aggregate in this state that has applied all these memberships, and nothing else. -/
def restingOn (id : String) (members : List Membership) (state : σ) : Aggregate ε σ :=
  ⟨id, members.length, members.length, [], state⟩

end Aggregate

namespace Repository

variable {type : AggregateType ε σ} {stream id : String}

section AnyBackend

variable {β : Type} {r : Repository ε β η ω} {w after : World β η ω}

omit [EventType ε] in
/-- A call that ends like this is answered like this. -/
theorem bounded_of_await {α : Type} {call : β → Call β α} {answer : Except Error α}
    {state : β} {elapsed : Nat}
    (h : (call w.backend).await r.timeout = ⟨answer, state, elapsed⟩) :
    r.bounded call w = (answer, { w with backend := state, clock := w.clock + elapsed }) := by
  unfold bounded
  rw [h]

/-! ## Loading -/

/-- A stored event is decoded by its name and its payload alone. -/
theorem decode_eq_ok_iff {envelope decoded : Envelope ε} {payload : String}
    (hpayload : envelope.event.marshal = .ok payload) :
    r.decode id envelope = .ok decoded ↔
      ∃ event, r.catalog.decode envelope.eventName payload = .ok event ∧
        decoded = { envelope with event, aggregateId := id } := by
  unfold decode
  rw [hpayload]
  show (r.catalog.decode envelope.eventName payload).bind _ = _ ↔ _
  cases r.catalog.decode envelope.eventName payload with
  | error e => simp [Except.bind]
  | ok event => simp [Except.bind, pure, Except.pure, eq_comm]

/-- Where the replay of these memberships succeeds, their envelopes are decoded and rebuild
an aggregate to the same state. -/
theorem rebuild_of_replay {s : Store} {members : List Membership} {a : Aggregate ε σ}
    (heven : a.originalVersion = a.currentVersion) {state : σ}
    (h : s.replay r.catalog type a.state members = some state) :
    ∃ history, (members.filterMap s.envelope?).mapM (r.decode id) = .ok history ∧
      a.rebuild type history = (.ok (), ⟨a.id, a.currentVersion + members.length,
        a.currentVersion + members.length, a.changes, state⟩) := by
  induction members generalizing a with
  | nil =>
      obtain ⟨aggregateId, original, current, changes, own⟩ := a
      cases h
      cases heven
      exact ⟨[], rfl, by simp [Aggregate.rebuild]⟩
  | cons member rest ih =>
      obtain ⟨body, event, next, hbody, hevent, hnext, h⟩ := Store.replay_cons_eq_some_iff.mp h
      let moved : Aggregate ε σ :=
        ⟨a.id, a.currentVersion + 1, a.currentVersion + 1, a.changes, next⟩
      obtain ⟨history, hhistory, hrebuild⟩ := ih (a := moved) rfl h
      let decoded : Envelope ε := ⟨some member.eventId, id, some member.version,
        some member.position, body.headers, event⟩
      have hdecoded : r.decode id (.stored member.eventId member.version member.position
          body.headers (.raw body.name body.payload)) = .ok decoded :=
        (decode_eq_ok_iff rfl).mpr ⟨event, hevent, rfl⟩
      refine ⟨decoded :: history, ?_, Aggregate.rebuild_cons_eq_ok_iff.mpr ⟨next, hnext, ?_⟩⟩
      · rw [List.filterMap_cons_some (Store.envelope?_eq_some hbody), List.mapM_cons, hdecoded,
          hhistory]
        rfl
      · have hlength : a.currentVersion + 1 + rest.length =
            a.currentVersion + (member :: rest).length := by
          rw [List.length_cons]
          push_cast
          omega
        rw [hrebuild, hlength]

/-- Envelopes that are decoded and rebuild an aggregate replay to its state. -/
theorem replay_of_rebuild {s : Store} {members : List Membership}
    (stored : ∀ member ∈ members, s.hasEvent member.eventId = true) {a b : Aggregate ε σ}
    {history : List (Envelope ε)}
    (hhistory : (members.filterMap s.envelope?).mapM (r.decode id) = .ok history)
    (h : a.rebuild type history = (.ok (), b)) :
    s.replay r.catalog type a.state members = some b.state := by
  induction members generalizing a history with
  | nil =>
      cases hhistory
      cases h
      rfl
  | cons member rest ih =>
      obtain ⟨body, hbody⟩ := Store.exists_body_of_hasEvent (stored member List.mem_cons_self)
      rw [List.filterMap_cons_some (Store.envelope?_eq_some hbody), List.mapM_cons] at hhistory
      obtain ⟨decoded, hdecoded, hhistory⟩ := Except.bind_eq_ok_iff.mp hhistory
      obtain ⟨others, hothers, hhistory⟩ := Except.bind_eq_ok_iff.mp hhistory
      cases hhistory
      obtain ⟨event, hevent, rfl⟩ := (decode_eq_ok_iff rfl).mp hdecoded
      obtain ⟨next, hnext, h⟩ := Aggregate.rebuild_cons_eq_ok_iff.mp h
      exact Store.replay_cons_eq_some_iff.mpr ⟨body, event, next, hbody, hevent, hnext,
        ih (fun other hother => stored other (List.mem_cons_of_mem _ hother)) hothers h⟩

/-- The aggregate that a sound store's stream adds up to: there is one if the stream has
members and they replay, and it stands at their number. -/
theorem assemble_read_eq_ok_iff {s : Store} (hsound : s.Sound) {a : Aggregate ε σ} :
    r.assemble type id (s.read stream) = .ok a ↔
      s.members stream ≠ [] ∧ ∃ state,
        s.replay r.catalog type type.initial (s.members stream) = some state ∧
        a = .restingOn id (s.members stream) state := by
  have hempty : (s.read stream : List (Envelope ε)).isEmpty = true ↔ s.members stream = [] := by
    rw [List.isEmpty_iff, ← List.length_eq_zero_iff, hsound.length_read,
      List.length_eq_zero_iff]
  have hrebuilt : ∀ {state}, s.replay r.catalog type type.initial (s.members stream) = some state →
      ∃ history, ((s.read stream : List (Envelope ε)).mapM (r.decode id)) = .ok history ∧
        (Aggregate.new type id).rebuild type history =
          (.ok (), .restingOn id (s.members stream) state) := by
    intro state h
    rw [Store.read_eq]
    obtain ⟨history, hhistory, hrebuild⟩ : ∃ history,
        ((s.members stream).filterMap s.envelope?).mapM (r.decode id) = .ok history ∧
          (Aggregate.new type id).rebuild type history = (.ok (), _) := rebuild_of_replay rfl h
    exact ⟨history, hhistory, by simpa [Aggregate.new, Aggregate.restingOn] using hrebuild⟩
  unfold assemble
  by_cases hmembers : s.members stream = []
  · rw [if_pos (hempty.mpr hmembers)]
    simp [hmembers]
  · rw [if_neg (fun h => hmembers (hempty.mp h))]
    constructor
    · intro h
      obtain ⟨history, hhistory, h⟩ := Except.bind_eq_ok_iff.mp h
      cases hb : (Aggregate.new type id).rebuild type history with
      | mk outcome b =>
          rw [hb] at h
          cases outcome with
          | error e => cases h
          | ok done =>
              cases h
              have hreplay := replay_of_rebuild (hsound.stored stream)
                (by rw [← Store.read_eq]; exact hhistory) hb
              obtain ⟨history', hhistory', hrebuild⟩ := hrebuilt hreplay
              rw [hhistory] at hhistory'
              cases hhistory'
              rw [hb] at hrebuild
              exact ⟨hmembers, a.state, hreplay, (Prod.mk.inj hrebuild).2⟩
    · rintro ⟨-, state, hreplay, rfl⟩
      obtain ⟨history, hhistory, hrebuild⟩ := hrebuilt hreplay
      refine Except.bind_eq_ok_iff.mpr ⟨history, hhistory, ?_⟩
      rw [hrebuild]

/-- A load or a beginning answers with what was loaded, or with a new aggregate if none was
found. -/
theorem loadOrNew_eq_ok {a : Aggregate ε σ} (h : (r.loadOrNew type id w).1 = .ok a) :
    (r.load type id w).1 = .ok a ∨
      (∃ other missing, (r.load type id w).1 = .error (.aggregateNotFound other missing)) ∧
        a = .new type id := by
  unfold loadOrNew at h
  split at h
  · rename_i heq
    cases h
    exact .inr ⟨⟨_, _, congrArg Prod.fst heq⟩, rfl⟩
  · exact .inl h

/-- Beginning where there is nothing to load does not change the world. -/
theorem world_loadOrNew : (r.loadOrNew type id w).2 = (r.load type id w).2 := by
  unfold loadOrNew
  split
  · rename_i heq
    rw [heq]
  · rfl

/-- Only a stream with a name is ever loaded. -/
theorem named_of_load {a : Aggregate ε σ} (hstream : r.names.streamOf type.name id = .ok stream)
    (h : (r.load type id w).1 = .ok a) : stream ≠ "" := by
  rintro rfl
  rw [load, hstream] at h
  cases h

/-- A load assembles what the backend has answered, and measures that it did. -/
theorem load_of_query (hstream : r.names.streamOf type.name id = .ok stream) (named : stream ≠ "")
    {stored : List (Envelope ε)}
    (h : r.bounded (r.backend.query (.whole stream)) w = (.ok stored, after)) :
    r.load type id w = match r.assemble type id stored with
      | .error e => (.error e, after)
      | .ok a => (.ok a, after.measure (·.recordLoad type.name)) := by
  have hbuild : ReadQuery.build { ReadQuery.empty with stream := some stream } =
      .ok (.whole stream) := by
    simp [ReadQuery.build, ReadQuery.empty, requireStreamId, named, ReadSpec.whole]
  rw [load, hstream]
  dsimp only
  rw [hbuild]
  dsimp only
  generalize r.bounded (r.backend.query (.whole stream)) w = result at h
  subst h
  rfl

/-! ## Saving -/

section Saving

variable [DecidableEq η] {a : Aggregate ε σ}

/-- A save without pending changes does nothing. -/
theorem save_of_no_changes (hstream : r.names.streamOf type.name a.id = .ok stream)
    (hchanges : a.changes = []) (expected : Option Int) :
    r.save type a expected w = (.ok (), a, w) := by
  rw [save, hstream, hchanges]
  rfl

variable (hstream : r.names.streamOf type.name a.id = .ok stream) (hchanges : a.changes ≠ [])
  {expected : Option Int}
include hstream hchanges

/-- What a save comes to whose append fails. -/
theorem save_eq_of_error {e : Error}
    (h : r.bounded (r.backend.append stream (outgoing a) expected) w = (.error e, after)) :
    r.save type a expected w = (.error e, a,
      if e.isConflict then after.measure (·.recordConflict type.name) else after) := by
  have hempty : ¬ a.changes.isEmpty = true := by
    rwa [List.isEmpty_iff]
  rw [save, hstream]
  dsimp only
  rw [if_neg hempty, h]

/-- What a save comes to whose append is answered. -/
theorem save_eq_of_ok {returned : List (Envelope ε)}
    (h : r.bounded (r.backend.append stream (outgoing a) expected) w = (.ok returned, after)) :
    ∃ seconds, r.save type a expected w = (.ok (), a.markSaved a.currentVersion,
      r.announce returned
        (after.measure (·.recordAppend type.name a.changes.length seconds))) := by
  have hempty : ¬ a.changes.isEmpty = true := by
    rwa [List.isEmpty_iff]
  rw [save, hstream]
  dsimp only
  rw [if_neg hempty, h]
  exact ⟨_, rfl⟩

/-- A save whose append fails passes the error on and leaves the aggregate as it was. -/
theorem save_of_error {e : Error}
    (h : r.bounded (r.backend.append stream (outgoing a) expected) w = (.error e, after)) :
    ∃ metrics, r.save type a expected w = (.error e, a, { after with metrics }) := by
  rw [save_eq_of_error hstream hchanges h]
  split
  · exact ⟨_, rfl⟩
  · exact ⟨after.metrics, rfl⟩

/-- A save whose append is answered marks the aggregate as saved and publishes what was
stored. -/
theorem save_of_ok {returned : List (Envelope ε)}
    (h : r.bounded (r.backend.append stream (outgoing a) expected) w = (.ok returned, after)) :
    ∃ metrics, r.save type a expected w = (.ok (), a.markSaved a.currentVersion,
      { after with
        bus := (Bus.publishAll r.react returned (after.bus, after.listeners)).1
        listeners := (Bus.publishAll r.react returned (after.bus, after.listeners)).2
        metrics }) := by
  obtain ⟨seconds, hsave⟩ := save_eq_of_ok hstream hchanges h
  exact ⟨_, hsave⟩

end Saving

end AnyBackend

variable {r : Repository ε Memory η ω} {supply : Nat → Draw} {w : World Memory η ω}

/-! ## Over the store in memory -/

section Calls

variable (hbackend : r.backend = Memory.backend supply)
include hbackend

theorem bounded_query (spec : ReadSpec) :
    r.bounded (r.backend.query spec) w = (.ok (w.backend.store.query spec), w) := by
  rw [hbackend]
  simp [bounded, Memory.backend]

theorem bounded_append (batch : List (Envelope ε)) (expected : Option Int) :
    r.bounded (r.backend.append stream batch expected) w =
      ((w.backend.append supply stream batch expected).1,
        { w with backend := (w.backend.append supply stream batch expected).2 }) := by
  rw [hbackend]
  simp [bounded, Memory.backend]

/-- A load assembles what the whole stream reads as, and measures that it did. -/
theorem load_eq (hstream : r.names.streamOf type.name id = .ok stream) (named : stream ≠ "") :
    r.load type id w = match r.assemble type id (w.backend.store.read stream) with
      | .error e => (.error e, w)
      | .ok a => (.ok a, w.measure (·.recordLoad type.name)) :=
  load_of_query hstream named (bounded_query hbackend _)

/-- A load is answered with what its stream is assembled to. -/
theorem load_answer (hstream : r.names.streamOf type.name id = .ok stream) (named : stream ≠ "") :
    (r.load type id w).1 = r.assemble type id (w.backend.store.read stream) := by
  rw [load_eq hbackend hstream named]
  cases r.assemble type id (w.backend.store.read stream) <;> rfl

/-- Loading measures that it has succeeded, if it has, and does nothing else. -/
theorem world_load : (r.load type id w).2 = match (r.load type id w).1 with
    | .ok _ => w.measure (·.recordLoad type.name)
    | .error _ => w := by
  unfold load
  cases r.names.streamOf type.name id with
  | error e => rfl
  | ok stream =>
      dsimp only
      cases ReadQuery.build { ReadQuery.empty with stream := some stream } with
      | error e => rfl
      | ok spec =>
          dsimp only
          rw [bounded_query hbackend]
          dsimp only
          cases r.assemble type id (w.backend.store.query spec) <;> rfl

/-- Loading leaves the store alone. -/
theorem backend_load : (r.load type id w).2.backend = w.backend := by
  rw [world_load hbackend]
  split <;> rfl

theorem backend_loadOrNew : (r.loadOrNew type id w).2.backend = w.backend := by
  rw [world_loadOrNew]
  exact backend_load hbackend

/-! ## Loading from a sound store -/

/-- A load that succeeds comes to the replay of the whole stream, which has members. -/
theorem load_eq_ok_iff (hstream : r.names.streamOf type.name id = .ok stream)
    (named : stream ≠ "") (hsound : w.backend.store.Sound) {a : Aggregate ε σ} :
    (r.load type id w).1 = .ok a ↔
      w.backend.store.members stream ≠ [] ∧ ∃ state,
        w.backend.store.replay r.catalog type type.initial (w.backend.store.members stream) =
          some state ∧
        a = .restingOn id (w.backend.store.members stream) state := by
  rw [load_answer hbackend hstream named, assemble_read_eq_ok_iff hsound]

/-- Loading does nothing but measure. -/
theorem exists_world_loadOrNew (hstream : r.names.streamOf type.name id = .ok stream)
    (named : stream ≠ "") : ∃ metrics, (r.loadOrNew type id w).2 = { w with metrics } := by
  rw [world_loadOrNew, load_eq hbackend hstream named]
  cases r.assemble type id (w.backend.store.read stream) with
  | error e => exact ⟨w.metrics, rfl⟩
  | ok a => exact ⟨_, rfl⟩

/-- A stream without members is not found. -/
theorem load_of_no_members (hstream : r.names.streamOf type.name id = .ok stream)
    (named : stream ≠ "") (hmembers : w.backend.store.members stream = []) :
    r.load type id w = (.error (.aggregateNotFound type.name id), w) := by
  have hread : (w.backend.store.read stream : List (Envelope ε)) = [] := by
    rw [Store.read_eq, hmembers]
    rfl
  rw [load_eq hbackend hstream named, hread]
  rfl

/-- A stream that replays is loaded, and an order without history is begun. -/
theorem loadOrNew_of_replay (hstream : r.names.streamOf type.name id = .ok stream)
    (named : stream ≠ "") (hsound : w.backend.store.Sound) {state : σ}
    (hreplay : w.backend.store.replay r.catalog type type.initial
      (w.backend.store.members stream) = some state) :
    (r.loadOrNew type id w).1 =
      .ok (.restingOn id (w.backend.store.members stream) state) := by
  by_cases hmembers : w.backend.store.members stream = []
  · rw [hmembers] at hreplay
    cases hreplay
    rw [loadOrNew, load_of_no_members hbackend hstream named hmembers, hmembers]
    rfl
  · have hload : (r.load type id w).1 = _ :=
      (load_eq_ok_iff hbackend hstream named hsound).mpr ⟨hmembers, state, hreplay, rfl⟩
    unfold loadOrNew
    split
    · rename_i heq
      rw [heq] at hload
      cases hload
    · exact hload

end Calls

variable [DecidableEq η] {a : Aggregate ε σ}

/-- A stored batch of pending changes takes one place each. -/
theorem length_saved {draw : Draw} {staged : List (Staged ε)}
    (h : Staged.ofEnvelopes draw 0 (outgoing a) = .ok staged) (position current : Int) :
    (Store.membersFrom position current (staged.map Staged.eventId)).length =
      a.changes.length := by
  rw [Store.length_membersFrom, List.length_map, Staged.length_of_ofEnvelopes h, outgoing,
    List.length_map]

section Changes

variable (hbackend : r.backend = Memory.backend supply)
  (hstream : r.names.streamOf type.name a.id = .ok stream) (hchanges : a.changes ≠ [])
  {expected : Option Int}
include hbackend hstream hchanges

/-- A save whose append is refused fails with that error and leaves the aggregate and the
store as they were. -/
theorem save_of_refused {e : Error}
    (h : w.backend.store.append (supply w.backend.drawn) stream (outgoing a) expected =
      .error e) :
    ∃ after, r.save type a expected w = (.error e, a, after) ∧
      after.backend.store = w.backend.store := by
  have hbounded : r.bounded (r.backend.append stream (outgoing a) expected) w = _ :=
    bounded_append hbackend _ _
  rw [Memory.append, h] at hbounded
  obtain ⟨metrics, hsave⟩ := save_of_error hstream hchanges hbounded
  exact ⟨_, hsave, rfl⟩

/-- A save whose append succeeds marks the aggregate as saved and publishes what was stored. -/
theorem exists_save_eq {returned : List (Envelope ε)} {s : Store}
    (h : w.backend.store.append (supply w.backend.drawn) stream (outgoing a) expected =
      .ok (returned, s)) :
    ∃ metrics, r.save type a expected w = (.ok (), a.markSaved a.currentVersion,
      { w with
        backend := ⟨s, w.backend.drawn + 1⟩
        bus := (Bus.publishAll r.react returned (w.bus, w.listeners)).1
        listeners := (Bus.publishAll r.react returned (w.bus, w.listeners)).2
        metrics }) := by
  have hbounded : r.bounded (r.backend.append stream (outgoing a) expected) w = _ :=
    bounded_append hbackend _ _
  rw [Memory.append, h] at hbounded
  exact save_of_ok hstream hchanges hbounded

theorem save_of_stored {returned : List (Envelope ε)} {s : Store}
    (h : w.backend.store.append (supply w.backend.drawn) stream (outgoing a) expected =
      .ok (returned, s)) :
    ∃ after, r.save type a expected w = (.ok (), a.markSaved a.currentVersion, after) ∧
      after.backend.store = s := by
  obtain ⟨metrics, hsave⟩ := exists_save_eq hbackend hstream hchanges h
  exact ⟨_, hsave, rfl⟩

end Changes

end Repository

end EventLog
