/-
# Loading and saving over a log that loses answers

The log in memory again, but now some of the appends that take effect are never answered, and
whoever waits for the answer is told that the call was given up. A timeout that runs out just
after the log has committed looks like this. `Disturbed.losing` gives the appends whose
answers are lost by a list with one entry for each append to come, so any placement of losses
is such a list. Nothing else goes wrong: refusals are answered truly, and so are reads.
-/

import EventLog.Backend.Disturbed
import EventLog.Proofs.Repository.InMemory

namespace EventLog

variable {ε η ω σ : Type} [EventType ε]

namespace Disturbed

/-- This log in memory, with the appends still to come marked whose answers will be lost. -/
def losing (memory : Memory) (losses : List Bool) : Disturbed ε where
  memory := memory
  onAppend := losses.map fun lost => if lost then some .silentCommit else none
  onQuery := []
  appendCalls := 0
  queryCalls := 0

/-- Nothing is going to happen but that answers to appends are lost. -/
structure Lossy (state : Disturbed ε) : Prop where
  onAppend : ∀ disturbance ∈ state.onAppend,
    disturbance = none ∨ disturbance = some .silentCommit
  onQuery : state.onQuery = []

omit [EventType ε] in
theorem lossy_losing (memory : Memory) (losses : List Bool) :
    (losing memory losses : Disturbed ε).Lossy := by
  refine ⟨fun disturbance hmem => ?_, rfl⟩
  obtain ⟨lost, -, rfl⟩ := List.mem_map.mp hmem
  cases lost with
  | false => exact .inl rfl
  | true => exact .inr rfl

namespace Lossy

variable {state : Disturbed ε} (supply : Nat → Draw)

omit [EventType ε] in
theorem head_onAppend (h : state.Lossy) :
    state.onAppend.head?.join = none ∨ state.onAppend.head?.join = some .silentCommit := by
  cases hschedule : state.onAppend with
  | nil => exact .inl rfl
  | cons disturbance rest => exact h.onAppend disturbance (hschedule ▸ List.mem_cons_self)

omit [EventType ε] in
/-- The calls go on in the same way. -/
theorem afterAppend (h : state.Lossy) (memory : Memory) :
    Lossy { state.beginAppend.2 with memory } :=
  ⟨fun disturbance hmem => h.onAppend disturbance (List.mem_of_mem_tail hmem), h.onQuery⟩

/-- A read is answered from the log as it is. -/
theorem await_query (h : state.Lossy) (spec : ReadSpec) (limit : Option Nat) :
    ∃ after, (query supply spec state).await limit =
        ⟨.ok (state.memory.store.query spec), after, 0⟩ ∧
      after.memory = state.memory ∧ after.Lossy := by
  rw [query, beginQuery, h.onQuery]
  exact ⟨_, Call.await_answered _ _ _, rfl, h.onAppend, rfl⟩

section Append

variable {stream : String} {batch : List (Envelope ε)} {expected : Option Int}

/-- A refusal is answered. -/
theorem await_append_of_error (h : state.Lossy) {e : Error}
    (hrefused : (state.memory.append supply stream batch expected).1 = .error e)
    (limit : Option Nat) :
    ∃ after, (append supply stream batch expected state).await limit = ⟨.error e, after, 0⟩ ∧
      after.memory = (state.memory.append supply stream batch expected).2 ∧ after.Lossy := by
  have hcalled : append supply stream batch expected state = .answered (.error e)
      { state.beginAppend.2 with
        memory := (state.memory.append supply stream batch expected).2 } := by
    rcases hanswer : state.memory.append supply stream batch expected with ⟨answer, memory⟩
    rw [hanswer] at hrefused
    cases hrefused
    rcases h.head_onAppend with hhead | hhead <;>
      simp [append, beginAppend, hhead, hanswer]
  rw [hcalled]
  exact ⟨_, Call.await_answered _ _ _, rfl, h.afterAppend _⟩

/-- An append that takes effect is answered truly, or the answer is lost. -/
theorem await_append_of_ok (h : state.Lossy) {stored : List (Envelope ε)}
    (hstored : (state.memory.append supply stream batch expected).1 = .ok stored)
    (limit : Option Nat) :
    ∃ answer after elapsed,
      (append supply stream batch expected state).await limit = ⟨answer, after, elapsed⟩ ∧
      (answer = .ok stored ∨ answer = .error .cancelled) ∧
      after.memory = (state.memory.append supply stream batch expected).2 ∧ after.Lossy := by
  rcases hanswer : state.memory.append supply stream batch expected with ⟨answer, memory⟩
  rw [hanswer] at hstored
  cases hstored
  rcases h.head_onAppend with hhead | hhead
  · have hcalled : append supply stream batch expected state =
        .answered (.ok stored) { state.beginAppend.2 with memory } := by
      simp [append, beginAppend, hhead, hanswer]
    rw [hcalled]
    exact ⟨_, _, _, Call.await_answered _ _ _, .inl rfl, rfl, h.afterAppend memory⟩
  · have hcalled : append supply stream batch expected state =
        .silent { state.beginAppend.2 with memory } := by
      simp [append, beginAppend, hhead, hanswer]
    rw [hcalled]
    exact ⟨_, _, _, rfl, .inr rfl, rfl, h.afterAppend memory⟩

end Append

end Lossy

end Disturbed

namespace Repository

variable {r : Repository ε (Disturbed ε) η ω} {type : AggregateType ε σ} {supply : Nat → Draw}
  {stream id : String} {w : World (Disturbed ε) η ω}
  (hbackend : r.backend = Disturbed.backend supply) (hlossy : w.backend.Lossy)
include hbackend hlossy

/-! ## Loading -/

/-- A load leaves the log alone and comes to what the whole stream reads as. -/
theorem load_of_lossy (hstream : r.names.streamOf type.name id = .ok stream) :
    (r.load type id w).2.backend.memory = w.backend.memory ∧
    (r.load type id w).2.backend.Lossy ∧
    ∀ a, (r.load type id w).1 = .ok a →
      r.assemble type id (w.backend.memory.store.read stream) = .ok a := by
  by_cases named : stream = ""
  · have hload : r.load type id w = (.error .emptyStreamId, w) := by
      rw [load, hstream, named]
      rfl
    rw [hload]
    exact ⟨rfl, hlossy, fun a ha => by cases ha⟩
  · obtain ⟨after, hawait, hmemory, hafter⟩ :=
      hlossy.await_query supply (.whole stream) r.timeout
    have hquery : (r.backend.query (.whole stream) w.backend).await r.timeout =
        ⟨.ok (w.backend.memory.store.read stream), after, 0⟩ := by
      rw [hbackend]
      exact hawait
    rw [load_of_query hstream named (bounded_of_await hquery)]
    cases r.assemble type id (w.backend.memory.store.read stream) with
    | error e => exact ⟨hmemory, hafter, fun a ha => by cases ha⟩
    | ok a => exact ⟨hmemory, hafter, fun _ h => h⟩

/-- A load or a beginning leaves the log alone too, and the aggregate rests on the whole
stream or on nothing. -/
theorem loadOrNew_of_lossy (hstream : r.names.streamOf type.name id = .ok stream)
    (hsound : w.backend.memory.store.Sound) :
    (r.loadOrNew type id w).2.backend.memory = w.backend.memory ∧
    (r.loadOrNew type id w).2.backend.Lossy ∧
    ∀ a, (r.loadOrNew type id w).1 = .ok a → a = .new type id ∨
      ∃ state, a = .restingOn id (w.backend.memory.store.members stream) state := by
  obtain ⟨hmemory, hlossy', hload⟩ := load_of_lossy hbackend hlossy hstream
  rw [world_loadOrNew]
  refine ⟨hmemory, hlossy', fun a ha => ?_⟩
  rcases loadOrNew_eq_ok ha with hok | ⟨-, rfl⟩
  · obtain ⟨-, state, -, rfl⟩ := (assemble_read_eq_ok_iff hsound).mp (hload a hok)
    exact .inr ⟨state, rfl⟩
  · exact .inl rfl

/-! ## Saving -/

variable [DecidableEq η] {a : Aggregate ε σ}
  (hstream : r.names.streamOf type.name a.id = .ok stream) (hchanges : a.changes ≠ [])
  {expected : Option Int}
include hstream hchanges

/-- A save whose append is refused fails with that error and leaves the aggregate and the
store as they were. -/
theorem lossy_save_of_refused {e : Error}
    (h : w.backend.memory.store.append (supply w.backend.memory.drawn) stream (outgoing a)
      expected = .error e) :
    ∃ after, r.save type a expected w = (.error e, a, after) ∧
      after.backend.memory.store = w.backend.memory.store ∧ after.backend.Lossy := by
  have hrefused : w.backend.memory.append supply stream (outgoing a) expected =
      (.error e, { w.backend.memory with drawn := w.backend.memory.drawn + 1 }) := by
    rw [Memory.append, h]
  obtain ⟨after, hawait, hmemory, hafter⟩ :=
    hlossy.await_append_of_error supply (congrArg Prod.fst hrefused) r.timeout
  have happend : (r.backend.append stream (outgoing a) expected w.backend).await r.timeout =
      ⟨.error e, after, 0⟩ := by
    rw [hbackend]
    exact hawait
  obtain ⟨metrics, hsave⟩ := save_of_error hstream hchanges (bounded_of_await happend)
  refine ⟨_, hsave, ?_, hafter⟩
  show after.memory.store = _
  rw [hmemory, hrefused]

/-- A save whose append takes effect is answered, and then the aggregate is marked as saved;
or the answer is lost, and then the aggregate is what it was. -/
theorem lossy_save_of_stored {returned : List (Envelope ε)} {s : Store}
    (h : w.backend.memory.store.append (supply w.backend.memory.drawn) stream (outgoing a)
      expected = .ok (returned, s)) :
    ∃ after, (r.save type a expected w = (.ok (), a.markSaved a.currentVersion, after) ∨
        r.save type a expected w = (.error .cancelled, a, after)) ∧
      after.backend.memory.store = s ∧ after.backend.Lossy := by
  have hstored : w.backend.memory.append supply stream (outgoing a) expected =
      (.ok returned, ⟨s, w.backend.memory.drawn + 1⟩) := by
    rw [Memory.append, h]
  obtain ⟨answer, after, elapsed, hawait, hanswer, hmemory, hafter⟩ :=
    hlossy.await_append_of_ok supply (congrArg Prod.fst hstored) r.timeout
  have happend : (r.backend.append stream (outgoing a) expected w.backend).await r.timeout =
      ⟨answer, after, elapsed⟩ := by
    rw [hbackend]
    exact hawait
  have hstore : after.memory.store = s := by
    rw [hmemory, hstored]
  rcases hanswer with rfl | rfl
  · obtain ⟨metrics, hsave⟩ := save_of_ok hstream hchanges (bounded_of_await happend)
    exact ⟨_, .inl hsave, hstore, hafter⟩
  · obtain ⟨metrics, hsave⟩ := save_of_error hstream hchanges (bounded_of_await happend)
    exact ⟨_, .inr hsave, hstore, hafter⟩

end Repository

end EventLog
