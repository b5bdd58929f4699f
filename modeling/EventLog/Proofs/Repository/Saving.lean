/-
# What a save comes to

A save without pending changes does nothing; any other is one append, and the append decides. If
it is refused, nothing has happened: the aggregate keeps its changes, the store and the bus are as
they were. If not, the pending changes stand at the end of the aggregate's stream, each naming the
aggregate it belongs to, the aggregate has none left, and what was stored is published.

The aggregate moves to the version it had reached by itself. An unconditional save may find the
stream at another one; what is published carries the versions of the stream.
-/

import EventLog.Order.Event
import EventLog.Proofs.Bus
import EventLog.Proofs.Repository.InMemory
import EventLog.Proofs.Store.Agreement
import EventLog.Proofs.Store.AllOrNothing
import EventLog.Proofs.StreamNames

namespace EventLog

variable {ε η ω σ : Type} [EventType ε]

/-- The error with which a save is refused: the aggregate type has no streams, or there is
something to append and the append is refused. -/
inductive SaveRefusal (names : StreamNames) (type : String) (s : Store) (a : Aggregate ε σ)
    (expected : Option Int) : Error → Prop
  | noStream (h : names.rules.get? type = none) :
      SaveRefusal names type s a expected (.noStreamName type)
  | append {stream : String} {e : Error} (hstream : names.streamOf type a.id = .ok stream)
      (pending : a.changes ≠ [])
      (h : AppendRefusal s stream (Repository.outgoing a) expected e) :
      SaveRefusal names type s a expected e

/-- What the pending changes of an aggregate have become when a save has returned these envelopes
to be published. -/
structure SavedIn (draw : Draw) (s after : Store) (stream : String) (a : Aggregate ε σ)
    (returned : List (Envelope ε)) : Prop where
  /-- They are the end of the stream, in order, and what was returned is what reads there. -/
  appended : Appended draw s after stream (Repository.outgoing a) returned
  /-- Each of them belongs to the aggregate, whatever it said before. -/
  aggregateId : ∀ envelope ∈ (after.read stream : List (Envelope ε)).drop
      (s.read stream : List (Envelope ε)).length,
    envelope.header? aggregateIdHeader = some a.id
  /-- Every other stream is as it was. -/
  others : ∀ other, other ≠ stream → s.AgreeOn other after

namespace Repository

omit [EventType ε] in
/-- A pending change names its aggregate. -/
theorem header?_of_mem_outgoing {a : Aggregate ε σ} {envelope : Envelope ε}
    (h : envelope ∈ outgoing a) : envelope.header? aggregateIdHeader = some a.id := by
  obtain ⟨change, -, rfl⟩ := List.mem_map.mp h
  rw [Envelope.header?_withHeader, if_pos rfl]

/-- Neither the time of storing nor a correlation identifier replaces that name. -/
theorem header?_of_storedAs {draw : Draw} {index : Nat} {version : Int}
    {given returned readBack : Envelope ε}
    (h : StoredAs draw index version given returned readBack) :
    readBack.header? aggregateIdHeader = given.header? aggregateIdHeader := by
  have hheaders : readBack.header? aggregateIdHeader = returned.header? aggregateIdHeader :=
    congrArg (fun headers : Headers => headers.get? aggregateIdHeader) h.headers
  rw [hheaders, h.stamped, if_neg (by decide), if_neg (by decide)]

/-- What a successful append of the pending changes does. -/
theorem savedIn_of_append_eq_ok {s after : Store} (hsound : s.Sound) {draw : Draw}
    {stream : String} {a : Aggregate ε σ} {returned : List (Envelope ε)} {expected : Option Int}
    (h : s.append draw stream (outgoing a) expected = .ok (returned, after))
    (fresh : draw.FreshFor s a.changes.length) : SavedIn draw s after stream a returned := by
  have hfresh : draw.FreshFor s (outgoing a).length := by
    rwa [outgoing, List.length_map]
  have happended := Store.appended_of_append_eq_ok hsound h hfresh
  obtain ⟨named, expectation, staged, prepared, -, hafter⟩ := Store.append_eq_ok_iff.mp h
  refine ⟨happended, fun envelope henvelope => ?_, fun other hother => ?_⟩
  · obtain ⟨added, hread, hlength, hadded⟩ := happended.exists_added
    rw [hread, List.drop_left] at henvelope
    obtain ⟨i, hi⟩ := List.mem_iff_getElem?.mp henvelope
    have hlt : i < (outgoing a).length := hlength ▸ (List.getElem?_eq_some_iff.mp hi).1
    obtain ⟨answer, readBack, -, hback, hstored⟩ := hadded i _ (List.getElem?_eq_getElem hlt)
    cases hi.symm.trans hback
    rw [header?_of_storedAs hstored, header?_of_mem_outgoing (List.getElem_mem hlt)]
  · have heffect : (LogCall.append stream (outgoing a) expected).Effect draw s after :=
      hafter ▸ .appended named prepared expectation
    exact heffect.agreeOn hsound hfresh hother.symm

variable [DecidableEq η] {r : Repository ε Memory η ω} {supply : Nat → Draw}

/-- All that a save can come to over the log in memory, and what it leaves behind. -/
inductive SaveCase (r : Repository ε Memory η ω) (supply : Nat → Draw) (type : AggregateType ε σ)
    (a : Aggregate ε σ) (expected : Option Int) (w : World Memory η ω) :
    Except Error Unit × Aggregate ε σ × World Memory η ω → Prop
  | noStream (h : r.names.rules.get? type.name = none) :
      SaveCase r supply type a expected w (.error (.noStreamName type.name), a, w)
  | nothing {stream : String} (hstream : r.names.streamOf type.name a.id = .ok stream)
      (h : a.changes = []) : SaveCase r supply type a expected w (.ok (), a, w)
  | refused {stream : String} {e : Error}
      (hstream : r.names.streamOf type.name a.id = .ok stream) (pending : a.changes ≠ [])
      (h : w.backend.store.append (supply w.backend.drawn) stream (outgoing a) expected =
        .error e) :
      SaveCase r supply type a expected w (.error e, a, { w with
        backend := ⟨w.backend.store, w.backend.drawn + 1⟩
        metrics := if e.isConflict then w.metrics.map (·.recordConflict type.name)
          else w.metrics })
  | stored {stream : String} {returned : List (Envelope ε)} {s : Store}
      (hstream : r.names.streamOf type.name a.id = .ok stream) (pending : a.changes ≠ [])
      (h : w.backend.store.append (supply w.backend.drawn) stream (outgoing a) expected =
        .ok (returned, s)) (seconds : Float) :
      SaveCase r supply type a expected w (.ok (), a.markSaved a.currentVersion, { w with
        backend := ⟨s, w.backend.drawn + 1⟩
        bus := (Bus.publishAll r.react returned (w.bus, w.listeners)).1
        listeners := (Bus.publishAll r.react returned (w.bus, w.listeners)).2
        metrics := w.metrics.map fun m =>
          (m.recordAppend type.name a.changes.length seconds).recordPublished returned.length })

theorem saveCase_save (hbackend : r.backend = Memory.backend supply) (type : AggregateType ε σ)
    (a : Aggregate ε σ) (expected : Option Int) (w : World Memory η ω) :
    SaveCase r supply type a expected w (r.save type a expected w) := by
  cases hrule : r.names.rules.get? type.name with
  | none =>
      rw [save, StreamNames.streamOf, hrule]
      exact .noStream hrule
  | some rule =>
      have hstream : r.names.streamOf type.name a.id = .ok (rule type.name a.id) := by
        rw [StreamNames.streamOf, hrule]
      by_cases pending : a.changes = []
      · rw [save_of_no_changes hstream pending]
        exact .nothing hstream pending
      · have hbounded : r.bounded (r.backend.append (rule type.name a.id) (outgoing a) expected) w =
            _ := bounded_append hbackend _ _
        rw [Memory.append] at hbounded
        cases happend : w.backend.store.append (supply w.backend.drawn) (rule type.name a.id)
            (outgoing a) expected with
        | error e =>
            rw [happend] at hbounded
            rw [save_eq_of_error hstream pending hbounded]
            have hcase := SaveCase.refused hstream pending happend
            cases hconflict : e.isConflict with
            | true =>
                rw [hconflict] at hcase
                exact hcase
            | false =>
                rw [hconflict] at hcase
                exact hcase
        | ok result =>
            rw [happend] at hbounded
            obtain ⟨seconds, hsave⟩ := save_eq_of_ok hstream pending hbounded
            have hcase := SaveCase.stored hstream pending happend seconds
            rw [hsave]
            simpa [announce, World.measure, Function.comp_def] using hcase

section Refused

variable (hbackend : r.backend = Memory.backend supply) {type : AggregateType ε σ}
  {a : Aggregate ε σ} {expected : Option Int} {w : World Memory η ω} {e : Error}
include hbackend

/-- A save fails exactly as `SaveRefusal` says. -/
theorem save_eq_error_iff :
    (r.save type a expected w).1 = .error e ↔
      SaveRefusal r.names type.name w.backend.store a expected e := by
  have hcase := saveCase_save hbackend type a expected w
  generalize r.save type a expected w = saved at hcase
  constructor
  · intro h
    cases hcase with
    | noStream hnone =>
        cases h
        exact .noStream hnone
    | nothing => cases h
    | refused hstream pending happend =>
        cases h
        exact .append hstream pending (Store.append_eq_error_iff.mp happend)
    | stored => cases h
  · intro h
    cases h with
    | noStream hnone =>
        cases hcase with
        | noStream => rfl
        | nothing hstream => exact (StreamNames.get?_ne_none_of_streamOf hstream hnone).elim
        | refused hstream => exact (StreamNames.get?_ne_none_of_streamOf hstream hnone).elim
        | stored hstream => exact (StreamNames.get?_ne_none_of_streamOf hstream hnone).elim
    | append hstream pending happend =>
        have hrefused : w.backend.store.append (supply w.backend.drawn) _ (outgoing a) expected =
            .error e := Store.append_eq_error_iff.mpr happend
        cases hcase with
        | noStream hnone => exact (StreamNames.get?_ne_none_of_streamOf hstream hnone).elim
        | nothing _ hchanges => exact (pending hchanges).elim
        | refused hstream' _ happend' =>
            cases hstream.symm.trans hstream'
            cases happend'.symm.trans hrefused
            rfl
        | stored hstream' _ happend' =>
            cases hstream.symm.trans hstream'
            cases happend'.symm.trans hrefused

/-- A save that fails leaves no trace but the draw it has taken and a conflict that is counted. -/
theorem unchanged_of_save_error (h : (r.save type a expected w).1 = .error e) :
    (r.save type a expected w).2.1 = a ∧
      (r.save type a expected w).2.2.backend.store = w.backend.store ∧
      (r.save type a expected w).2.2.bus = w.bus ∧
      (r.save type a expected w).2.2.listeners = w.listeners := by
  have hcase := saveCase_save hbackend type a expected w
  generalize r.save type a expected w = saved at hcase h
  cases hcase with
  | noStream => exact ⟨rfl, rfl, rfl, rfl⟩
  | nothing => cases h
  | refused => exact ⟨rfl, rfl, rfl, rfl⟩
  | stored => cases h

end Refused

/-- Saving over the log in memory, from any state of it.

Without pending changes a save of an aggregate whose type has streams does nothing at all. A save
fails exactly as `SaveRefusal` says, and then the aggregate, the store, the bus and the listeners
are as they were. A save of pending changes that succeeds leaves the aggregate with none, at the
version it had reached, and otherwise as it was; the changes are in its stream, and after that
every handler has been called with those of them to whose names it is subscribed, each once, in
order and as they were stored. -/
theorem save_end_to_end (hbackend : r.backend = Memory.backend supply) (quiet : r.react.Quiet)
    (w : World Memory η ω) (calls : List (LogCall ε)) (wanted : List (η × List String))
    (type : AggregateType ε σ) (a : Aggregate ε σ) (expected : Option Int) :
    let memory := (converse (Memory.access supply) calls .empty).2
    let bus := Bus.empty.subscribeAll wanted
    let start : World Memory η ω := { w with backend := memory, bus }
    let saved := r.save type a expected start
    let after := saved.2.2
    (∀ stream, r.names.streamOf type.name a.id = .ok stream → a.changes = [] →
      saved = (.ok (), a, start)) ∧
    (∀ e, saved.1 = .error e ↔ SaveRefusal r.names type.name memory.store a expected e) ∧
    (∀ e, saved.1 = .error e → saved.2.1 = a ∧ after.backend.store = memory.store ∧
      after.bus = bus ∧ after.listeners = w.listeners) ∧
    (saved.1 = .ok () → a.changes ≠ [] →
      saved.2.1 = ⟨a.id, a.currentVersion, a.currentVersion, [], a.state⟩ ∧
      ∃ stream returned, r.names.streamOf type.name a.id = .ok stream ∧
        memory.store.append (supply memory.drawn) stream (outgoing a) expected =
          .ok (returned, after.backend.store) ∧
        ((supply memory.drawn).FreshFor memory.store a.changes.length →
          SavedIn (supply memory.drawn) memory.store after.backend.store stream a returned) ∧
        after.bus = bus ∧
        after.listeners = Bus.deliver r.react (bus.calls returned) w.listeners ∧
        ∀ handler, ((bus.calls returned).filter (·.1 = handler)).map Prod.snd =
          returned.filter fun envelope =>
            ∃ want ∈ wanted, want.1 = handler ∧ envelope.eventName ∈ want.2) := by
  intro memory bus start saved after
  refine ⟨?nothing, ?fails, ?unchanged, ?saved⟩
  case nothing =>
    intro stream hstream hchanges
    exact save_of_no_changes hstream hchanges expected
  case fails =>
    intro e
    exact save_eq_error_iff hbackend
  case unchanged =>
    intro e h
    exact unchanged_of_save_error hbackend h
  case saved =>
    intro hok pending
    have hsound : memory.store.Sound := Memory.sound_converse supply Memory.sound_empty calls
    have hdistinct : bus.Distinct := Bus.distinct_empty.subscribeAll wanted
    have hcase : SaveCase r supply type a expected start saved := saveCase_save hbackend _ _ _ _
    -- From here on nothing is known of the save but its case.
    clear_value saved
    cases hcase with
    | noStream => cases hok
    | nothing _ hchanges => exact (pending hchanges).elim
    | refused => cases hok
    | @stored stream returned s hstream _ happend seconds =>
        have hpublished : Bus.publishAll r.react returned (bus, w.listeners) = _ :=
          Bus.publishAll_of_quiet quiet returned w.listeners
        refine ⟨rfl, stream, returned, hstream, happend, savedIn_of_append_eq_ok hsound happend,
          congrArg Prod.fst hpublished, congrArg Prod.snd hpublished, fun handler => ?_⟩
        rw [Bus.filter_calls hdistinct]
        apply List.filter_congr
        intro envelope _
        rw [decide_eq_decide, Bus.mem_handlersOf_subscribeAll]
        exact or_iff_right List.not_mem_nil

/-- Two notes, the first of which names another aggregate, saved whatever the version behind a
note that the aggregate has not seen. Of the two handlers one has subscribed twice. -/
theorem save_end_to_end_behind_another :
    let note : Envelope OrderEvent := .fresh "7" (.raw "Noted" "")
    let a : Aggregate OrderEvent Nat :=
      ⟨"7", 0, 2, [note.withHeader aggregateIdHeader "8", note], 0⟩
    let type : AggregateType OrderEvent Nat := ⟨"Order", 0, .empty "Order"⟩
    let r : Repository OrderEvent Memory Nat (List (Nat × Option Int)) :=
      ⟨Memory.backend countingSupply, ⟨.ofList [("Order", fun _ id => id)]⟩, .empty,
        fun handler envelope seen => (seen ++ [(handler, envelope.version)], []), none⟩
    let memory := (converse (Memory.access countingSupply) [.append "7" [note] none] .empty).2
    let bus := Bus.empty.subscribeAll [(1, ["Noted"]), (2, ["Gone", "Noted"]), (1, ["Noted"])]
    let saved := r.save type a none ⟨memory, bus, [], none, 0⟩
    saved.1 = .ok () ∧ saved.2.1 = ⟨"7", 2, 2, [], 0⟩ ∧
      saved.2.2.listeners = [(1, some 2), (2, some 2), (1, some 3), (2, some 3)] ∧
      ∃ returned, SavedIn (countingSupply 1) memory.store saved.2.2.backend.store "7" a
        returned := by
  intro note a type r memory bus saved
  have hquiet : r.react.Quiet := fun _ _ _ => rfl
  have hok : saved.1 = .ok () := rfl
  have hpending : a.changes ≠ [] := List.cons_ne_nil _ _
  have hfresh : (countingSupply memory.drawn).FreshFor memory.store a.changes.length :=
    ⟨by decide, by decide⟩
  obtain ⟨-, -, -, hsaved⟩ := save_end_to_end rfl hquiet ⟨.empty, .empty, [], none, 0⟩
    [.append "7" [note] none] [(1, ["Noted"]), (2, ["Gone", "Noted"]), (1, ["Noted"])] type a none
  obtain ⟨haggregate, stream, returned, hstream, happend, hin, -, hlisteners, -⟩ :=
    hsaved hok hpending
  cases hstream
  refine ⟨hok, haggregate, ?_, returned, hin hfresh⟩
  cases happend
  exact hlisteners

end Repository

end EventLog
