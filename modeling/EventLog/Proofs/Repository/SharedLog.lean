/-
# Loading and saving while others write

The log in memory as a caller meets it who is not alone. The log takes one call at a time, so
whatever the others do, it happens before one call of the caller or before the next, and a
schedule of it is a list: `Shared.others` has one entry for each call to come, with all that
the others put to the log before it. An append of the caller's own is `Memory.append` and a
read is `Store.query`, on the store as the others have left it.

The caller and the others draw from supplies of their own. That makes no difference to what
can be drawn, and it means that a refused append of the caller's leaves everything as if it
had not been made: `Shared.alone` is the log as the others alone would have it.
-/

import EventLog.Proofs.Repository.InMemory
import EventLog.Proofs.Store.AppendOnly

namespace EventLog

variable {ε η ω σ : Type} [EventType ε]

structure Shared (ε : Type) where
  store : Store
  /-- How many draws the caller's appends have taken, and how many the others' have. -/
  ours : Nat
  theirs : Nat
  /-- What the others put to the log before each of the calls to come. -/
  others : List (List (LogCall ε))
  /-- The batches that the caller has stored. -/
  stored : List (List (Envelope ε))

/-- An append is one on the store with the next draw; if that is refused, the store stays. -/
theorem Memory.append_cases {supply : Nat → Draw} {memory after : Memory} {stream : String}
    {batch : List (Envelope ε)} {expected : Option Int} {answer : Except Error (List (Envelope ε))}
    (h : memory.append supply stream batch expected = (answer, after)) :
    after.drawn = memory.drawn + 1 ∧
      ((∃ e, answer = .error e ∧ after.store = memory.store) ∨
        ∃ returned, answer = .ok returned ∧
          memory.store.append (supply memory.drawn) stream batch expected =
            .ok (returned, after.store)) := by
  unfold append at h
  cases happend : memory.store.append (supply memory.drawn) stream batch expected with
  | error e =>
      rw [happend] at h
      cases h
      exact ⟨rfl, .inl ⟨e, rfl, rfl⟩⟩
  | ok result =>
      rw [happend] at h
      cases h
      exact ⟨rfl, .inr ⟨result.1, rfl, rfl⟩⟩

namespace Shared

omit [EventType ε] in
/-- A log of which the caller has made no use yet. -/
def opened (memory : Memory) (others : List (List (LogCall ε))) : Shared ε :=
  ⟨memory.store, 0, memory.drawn, others, []⟩

/-- What the others put to the log in their turn, counted from the next one. After the last of
them they are silent. -/
def turn (state : Shared ε) (n : Nat) : List (LogCall ε) := state.others[n]?.getD []

section Calls

variable (theirs ours : Nat → Draw)

/-- The others come first. -/
def overtaken (state : Shared ε) : Shared ε :=
  let memory := (converse (Memory.access theirs) (state.turn 0) ⟨state.store, state.theirs⟩).2
  { state with store := memory.store, theirs := memory.drawn, others := state.others.tail }

def append (stream : String) (batch : List (Envelope ε)) (expected : Option Int)
    (state : Shared ε) : Call (Shared ε) (List (Envelope ε)) :=
  let state := state.overtaken theirs
  let (answer, own) := Memory.append ours ⟨state.store, state.ours⟩ stream batch expected
  .answered answer { state with
    store := own.store, ours := own.drawn
    stored := if answer.isOk then state.stored ++ [batch] else state.stored }

def query (spec : ReadSpec) (state : Shared ε) : Call (Shared ε) (List (Envelope ε)) :=
  let state := state.overtaken theirs
  .answered (.ok (state.store.query spec)) state

def backend : Backend ε (Shared ε) := ⟨append theirs ours, query theirs⟩

/-- The log after the first `n` turns of the others, if nobody else does anything. -/
def alone (start : Shared ε) (n : Nat) : Memory :=
  (converse (Memory.access theirs) (start.others.take n).flatten ⟨start.store, start.theirs⟩).2

end Calls

/-! ## The log as the others have left it -/

variable {theirs ours : Nat → Draw} {start state : Shared ε} {n : Nat}

/-- The others have had `n` turns, and the caller has stored nothing. -/
structure LeftAlone (state : Shared ε) (theirs : Nat → Draw) (start : Shared ε) (n : Nat) :
    Prop where
  store : state.store = (start.alone theirs n).store
  theirs : state.theirs = (start.alone theirs n).drawn
  others : state.others = start.others.drop n
  stored : state.stored = start.stored

theorem leftAlone_start : start.LeftAlone theirs start 0 := ⟨rfl, rfl, rfl, rfl⟩

theorem alone_succ (start : Shared ε) (n : Nat) :
    start.alone theirs (n + 1) =
      (converse (Memory.access theirs) (start.turn n) (start.alone theirs n)).2 := by
  have hflatten : (start.others.take (n + 1)).flatten =
      (start.others.take n).flatten ++ start.turn n := by
    rw [List.take_add_one, List.flatten_append, turn]
    cases start.others[n]? <;> simp
  rw [alone, hflatten, converse_append]
  rfl

/-- After a turn of the others they have had one turn more. -/
theorem LeftAlone.overtaken (h : state.LeftAlone theirs start n) :
    (state.overtaken theirs).LeftAlone theirs start (n + 1) := by
  have hnext : state.turn 0 = start.turn n := by
    rw [turn, turn, h.others, List.getElem?_drop, Nat.add_zero]
  have hmemory : (⟨state.store, state.theirs⟩ : Memory) = start.alone theirs n := by
    rw [h.store, h.theirs]
  unfold Shared.overtaken
  rw [hnext, hmemory, ← alone_succ]
  refine ⟨rfl, rfl, ?_, h.stored⟩
  show state.others.tail = _
  rw [h.others, List.tail_drop]

theorem sound_alone (h : start.store.Sound) (n : Nat) : (start.alone theirs n).store.Sound :=
  Memory.sound_converse theirs h _

/-- The caller has stored one batch, on the log as the others had left it after `n` turns. -/
structure Committed (state : Shared ε) (theirs ours : Nat → Draw) (start : Shared ε) (n : Nat)
    (stream : String) (batch : List (Envelope ε)) (expected : Option Int) : Prop where
  appended : ∃ returned, (start.alone theirs n).store.append (ours (state.ours - 1)) stream batch
    expected = .ok (returned, state.store)
  stored : state.stored = start.stored ++ [batch]

/-- An append comes to nothing, or it is carried out behind a turn of the others. -/
theorem LeftAlone.await_append (h : state.LeftAlone theirs start n) (ours : Nat → Draw)
    (stream : String) (batch : List (Envelope ε)) (expected : Option Int) (limit : Option Nat) :
    ∃ answer after, (append theirs ours stream batch expected state).await limit =
        ⟨answer, after, 0⟩ ∧
      ((∃ e, answer = .error e ∧ after.LeftAlone theirs start (n + 1)) ∨
        ∃ returned, answer = .ok returned ∧
          after.Committed theirs ours start (n + 1) stream batch expected) := by
  have hmet := h.overtaken
  let met := state.overtaken theirs
  rcases hanswer : Memory.append ours ⟨met.store, met.ours⟩ stream batch expected with
    ⟨answer, own⟩
  have hcalled : append theirs ours stream batch expected state =
      .answered answer { met with
        store := own.store, ours := own.drawn
        stored := if answer.isOk then met.stored ++ [batch] else met.stored } := by
    unfold append
    dsimp only
    rw [hanswer]
  rw [hcalled, Call.await_answered]
  refine ⟨_, _, rfl, ?_⟩
  obtain ⟨hdrawn, ⟨e, rfl, hstore⟩ | ⟨returned, rfl, happend⟩⟩ := Memory.append_cases hanswer
  · exact .inl ⟨e, rfl, hstore.trans hmet.store, hmet.theirs, hmet.others, hmet.stored⟩
  · refine .inr ⟨returned, rfl, ⟨returned, ?_⟩, congrArg (· ++ [batch]) hmet.stored⟩
    rw [← hmet.store]
    show met.store.append (ours (own.drawn - 1)) stream batch expected = _
    rw [hdrawn]
    exact happend

namespace Committed

variable {stream : String} {batch : List (Envelope ε)} {expected : Option Int}
  (h : state.Committed theirs ours start n stream batch expected)
include h

/-- The stream had the version that was expected. -/
theorem expectation :
    versionMatches expected ((start.alone theirs n).store.lastVersion stream) := by
  obtain ⟨returned, happend⟩ := h.appended
  exact (Store.append_eq_ok_iff.mp happend).2.1

/-- The stream has one membership more for each event of the batch. -/
theorem members : ∃ placed, state.store.members stream =
    (start.alone theirs n).store.members stream ++ placed ∧ placed.length = batch.length := by
  obtain ⟨returned, happend⟩ := h.appended
  obtain ⟨-, -, staged, hprepared, -, hstore⟩ := Store.append_eq_ok_iff.mp happend
  rw [hstore, Store.members_grown, if_pos rfl]
  refine ⟨_, rfl, ?_⟩
  rw [Store.length_membersFrom, List.length_map, Staged.length_of_ofEnvelopes hprepared]

/-- And these read as the batch, if its identifiers were fresh. -/
theorem read (hsound : start.store.Sound)
    (fresh : (ours (state.ours - 1)).FreshFor (start.alone theirs n).store batch.length) :
    ∃ added, state.store.read stream = (start.alone theirs n).store.read stream ++ added ∧
      List.Forall₂ (Entry.ReadsAs state.store) (batch.map .given) added := by
  obtain ⟨returned, happend⟩ := h.appended
  obtain ⟨-, -, staged, hprepared, -, hstore⟩ := Store.append_eq_ok_iff.mp happend
  have haccepts := Store.accepts_of_freshFor fresh hprepared
  rw [hstore]
  exact ⟨_, Store.read_grown haccepts (sound_alone hsound n) _ _,
    Store.readsAs_of_ofEnvelopes _ hprepared _ _⟩

end Committed

section History

variable {stream : String} {batch : List (Envelope ε)} {version : Int}
  (hsound : start.store.Sound)
  (h : state.Committed theirs ours start (n + 1) stream batch (some version))
  (hversion : version = ((start.alone theirs n).store.members stream).length)
  (spared : ∀ call ∈ start.turn n, call ≠ .delete stream)

include hsound h hversion spared

/-- If the version expected is that of a moment before, and the stream has not been deleted
since, nothing has come in between. -/
theorem Committed.members_eq :
    (start.alone theirs (n + 1)).store.members stream =
      (start.alone theirs n).store.members stream := by
  have hgrows : (start.alone theirs n).store.members stream <+:
      (start.alone theirs (n + 1)).store.members stream := by
    rw [alone_succ]
    exact Memory.members_grows_converse spared
  refine (hgrows.eq_of_length ?_).symm
  obtain hnone | hsome := h.expectation
  · cases hnone
  · have hlast := Option.some.inj hsome
    rw [hversion, (sound_alone hsound (n + 1)).lastVersion_eq] at hlast
    exact_mod_cast hlast

/-- The stream then has what it had, and behind it the batch. -/
theorem Committed.after_history :
    (∃ placed, state.store.members stream =
        (start.alone theirs n).store.members stream ++ placed ∧
      placed.length = batch.length) ∧
    (FreshAlong theirs (start.turn n) (start.alone theirs n) →
      (ours (state.ours - 1)).FreshFor (start.alone theirs (n + 1)).store batch.length →
        ∃ added, state.store.read stream = (start.alone theirs n).store.read stream ++ added ∧
          List.Forall₂ (Entry.ReadsAs state.store) (batch.map .given) added) := by
  have hmembers := h.members_eq hsound hversion spared
  refine ⟨?_, fun fresh hdraw => ?_⟩
  · rw [← hmembers]
    exact h.members
  · have hcontinues : Store.Continues stream (start.alone theirs n).store
        (start.alone theirs (n + 1)).store := by
      rw [alone_succ]
      exact Memory.continues_converse spared fresh
    have hread : ((start.alone theirs n).store.read stream : List (Envelope ε)) =
        (start.alone theirs (n + 1)).store.read stream := by
      rw [Store.read_eq, Store.read_eq, hmembers,
        hcontinues.filterMap_envelope?_eq (sound_alone hsound n) (List.Subset.refl _)]
    rw [hread]
    exact h.read hsound hdraw

end History

end Shared

namespace Repository

variable {r : Repository ε (Shared ε) η ω} {type : AggregateType ε σ} {theirs ours : Nat → Draw}
  {start : Shared ε} {n : Nat} {id : String} {w : World (Shared ε) η ω}
  (hbackend : r.backend = Shared.backend theirs ours)
include hbackend

/-! ## Loading -/

/-- A load fails before the log is asked, for want of a stream; or it comes to what the whole
stream reads as after a turn of the others. -/
theorem load_cases (type : AggregateType ε σ) (id : String) (w : World (Shared ε) η ω) :
    (∃ e, r.load type id w = (.error e, w) ∧ e.isNotFound = false) ∨
    ∃ stream, r.names.streamOf type.name id = .ok stream ∧
      r.load type id w =
        match r.assemble type id ((w.backend.overtaken theirs).store.read stream) with
        | .error e => (.error e, { w with backend := w.backend.overtaken theirs })
        | .ok a => (.ok a,
          { w with backend := w.backend.overtaken theirs }.measure (·.recordLoad type.name)) := by
  cases hstream : r.names.streamOf type.name id with
  | error e =>
      have he : e.isNotFound = false := by
        unfold StreamNames.streamOf at hstream
        split at hstream
        · cases hstream
        · cases hstream
          rfl
      rw [load, hstream]
      exact .inl ⟨e, rfl, he⟩
  | ok stream =>
      by_cases named : stream = ""
      · refine .inl ⟨.emptyStreamId, ?_, rfl⟩
        rw [load, hstream, named]
        rfl
      · have hquery : (r.backend.query (.whole stream) w.backend).await r.timeout =
            ⟨.ok ((w.backend.overtaken theirs).store.read stream), w.backend.overtaken theirs,
              0⟩ := by
          rw [hbackend]
          exact Call.await_answered _ _ _
        refine .inr ⟨stream, rfl, ?_⟩
        rw [load_of_query hstream named (bounded_of_await hquery)]
        rfl

/-- Whatever comes of a load or a beginning, the caller stores nothing by it. -/
theorem leftAlone_loadOrNew (h : w.backend.LeftAlone theirs start n) :
    ∃ m, (r.loadOrNew type id w).2.backend.LeftAlone theirs start m := by
  rw [world_loadOrNew]
  obtain ⟨e, hload, -⟩ | ⟨stream, -, hload⟩ := load_cases hbackend type id w
  · rw [hload]
    exact ⟨n, h⟩
  · rw [hload]
    cases r.assemble type id ((w.backend.overtaken theirs).store.read stream) with
    | error e => exact ⟨n + 1, h.overtaken⟩
    | ok a => exact ⟨n + 1, h.overtaken⟩

/-- What is loaded or begun comes after one turn of the others, and is what the whole stream
adds up to then, or a new aggregate if that is not to be found. -/
theorem loadOrNew_of_shared {a : Aggregate ε σ} (h : (r.loadOrNew type id w).1 = .ok a) :
    (r.loadOrNew type id w).2.backend = w.backend.overtaken theirs ∧
      ∃ stream, r.names.streamOf type.name id = .ok stream ∧
        (r.assemble type id ((w.backend.overtaken theirs).store.read stream) = .ok a ∨
          a = .new type id ∧ ∃ other missing,
            r.assemble type id ((w.backend.overtaken theirs).store.read stream) =
              .error (.aggregateNotFound other missing)) := by
  have hanswer := loadOrNew_eq_ok h
  rw [world_loadOrNew]
  obtain ⟨e, hload, he⟩ | ⟨stream, hstream, hload⟩ := load_cases hbackend type id w
  · rw [hload] at hanswer
    obtain hok | ⟨⟨other, missing, hmissing⟩, -⟩ := hanswer
    · cases hok
    · cases hmissing
      cases he
  · cases hassemble : r.assemble type id ((w.backend.overtaken theirs).store.read stream) with
    | error e =>
        rw [hassemble] at hload
        rw [hload] at hanswer ⊢
        obtain hok | ⟨⟨other, missing, hmissing⟩, rfl⟩ := hanswer
        · cases hok
        · cases hmissing
          exact ⟨rfl, stream, hstream, .inr ⟨rfl, other, missing, hassemble⟩⟩
    | ok loaded =>
        rw [hassemble] at hload
        rw [hload] at hanswer ⊢
        obtain hok | ⟨⟨other, missing, hmissing⟩, -⟩ := hanswer
        · cases hok
          exact ⟨rfl, stream, hstream, .inl hassemble⟩
        · cases hmissing

/-! ## Saving -/

variable [DecidableEq η]

/-- A save fails and stores nothing; or there is nothing to store; or it stores the pending
changes as one batch, behind a turn of the others. -/
theorem save_cases (h : w.backend.LeftAlone theirs start n) (type : AggregateType ε σ)
    (a : Aggregate ε σ) (expected : Option Int) :
    let result := r.save type a expected w
    (∃ e m, result.1 = .error e ∧ result.2.2.backend.LeftAlone theirs start m) ∨
    (a.changes = [] ∧ result.1 = .ok () ∧ result.2.1 = a ∧
      result.2.2.backend.LeftAlone theirs start n) ∨
    (a.changes ≠ [] ∧ result.1 = .ok () ∧ result.2.1 = a.markSaved a.currentVersion ∧
      ∃ stream, r.names.streamOf type.name a.id = .ok stream ∧
        result.2.2.backend.Committed theirs ours start (n + 1) stream (outgoing a) expected) := by
  intro result
  cases hstream : r.names.streamOf type.name a.id with
  | error e =>
      have hsave : result = (.error e, a, w) := by
        show r.save type a expected w = _
        rw [save, hstream]
      rw [hsave]
      exact .inl ⟨e, n, rfl, h⟩
  | ok stream =>
      by_cases hchanges : a.changes = []
      · have hsave : result = (.ok (), a, w) := save_of_no_changes hstream hchanges expected
        rw [hsave]
        exact .inr (.inl ⟨hchanges, rfl, rfl, h⟩)
      · obtain ⟨answer, after, hawait, hanswer⟩ :=
          h.await_append ours stream (outgoing a) expected r.timeout
        have happend : (r.backend.append stream (outgoing a) expected w.backend).await r.timeout =
            ⟨answer, after, 0⟩ := by
          rw [hbackend]
          exact hawait
        obtain ⟨e, rfl, hafter⟩ | ⟨returned, rfl, hafter⟩ := hanswer
        · obtain ⟨metrics, hsave⟩ := save_of_error hstream hchanges (bounded_of_await happend)
          have hsave : result = _ := hsave
          rw [hsave]
          exact .inl ⟨e, n + 1, rfl, hafter⟩
        · obtain ⟨metrics, hsave⟩ := save_of_ok hstream hchanges (bounded_of_await happend)
          have hsave : result = _ := hsave
          rw [hsave]
          exact .inr (.inr ⟨hchanges, rfl, rfl, stream, rfl, hafter⟩)

end Repository

end EventLog
