/-
# Loading an order is exact

Whatever an order's stream holds, a load is answered in one way only. If the stream has no
members, the order is missing. If an event cannot be decoded, the first such event decides, even
behind one that is no order event. If all can be decoded and one of them is no order event, that
was not expected. What is left is a stream of order events, and the order is what they add up to.

The order that was loaded stands at the number of events it has applied, while the store checks an
expected version against the last membership. That the two are one number is what soundness says,
after any appends, links and deletions; it is why a save right behind a load is not refused.
-/

import EventLog.Proofs.Order.Registration
import EventLog.Proofs.Repository.Loading
import EventLog.Proofs.Store.AllOrNothing

namespace EventLog.Order

variable {ε η ω : Type} [EventType ε] [Includes OrderEvent ε]
  {r : Repository ε Memory η ω} {supply : Nat → Draw}

/-- Order events all have a transition, their effect. -/
theorem mapM_change? {decoded : List (Event ε)} {events : List OrderEvent}
    (h : decoded.map (Event.data? OrderEvent) = events.map some) :
    decoded.mapM (transitions ε).change? = .ok (events.map fun e s => s.apply e) := by
  induction decoded generalizing events with
  | nil =>
      cases List.map_eq_nil_iff.mp h.symm
      rfl
  | cons event rest ih =>
      cases events with
      | nil => cases h
      | cons e others =>
          rw [List.map_cons, List.map_cons, List.cons.injEq] at h
          rw [List.mapM_cons, change?_of_data? h.1, ih h.2]
          rfl

/-- Events of which one is no order event are refused. -/
theorem exists_cause_of_mem {decoded : List (Event ε)}
    (h : ∃ event ∈ decoded, event.data? OrderEvent = none) :
    ∃ cause, decoded.mapM (transitions ε).change? = .error (.unexpected cause) := by
  cases hchanges : decoded.mapM (transitions ε).change? with
  | error e =>
      obtain ⟨event, -, hrefused⟩ := Except.exists_error_of_mapM hchanges
      obtain ⟨cause, rfl⟩ := Transitions.unexpected_of_change? hrefused
      exact ⟨cause, rfl⟩
  | ok changes =>
      obtain ⟨event, hevent, hdata⟩ := h
      obtain ⟨change, hchange⟩ := Except.exists_ok_of_mapM hchanges hevent
      obtain ⟨cause, hcause⟩ := exists_cause_of_data? hdata
      cases hchange.symm.trans hcause

/-- An order that was just loaded and has accepted commands since can be saved behind the version
it was loaded at. -/
theorem save_of_load [DecidableEq η] (hbackend : r.backend = Memory.backend supply)
    (hrule : r.names.rules.get? typeName = some typeHashId) {w : World Memory η ω} {id : String}
    (hsound : w.backend.store.Sound) {order changed : Order ε}
    (hload : (r.load (aggregateType ε) id w).1 = .ok order)
    {commands : List (Timestamp × OrderCommand)}
    (hcommands : handleAll commands order = .ok changed) :
    (r.save (aggregateType ε) changed (some changed.originalVersion)
      (r.load (aggregateType ε) id w).2).1 = .ok () := by
  have hstream := streamOf_of_rule hrule id
  have hnamed := streamName_ne_empty id
  have hkept : (r.load (aggregateType ε) id w).2.backend = w.backend :=
    Repository.backend_load hbackend
  obtain ⟨-, state, -, rfl⟩ :=
    (Repository.load_eq_ok_iff hbackend hstream hnamed hsound).mp hload
  obtain ⟨events, hchanged, -⟩ := exists_events_of_handleAll hcommands
  have hid : changed.id = id := by rw [hchanged]; rfl
  have hchanges : changed.changes = events.map (change id) := by rw [hchanged]; rfl
  -- The order counts the events it has applied, the store looks at the last membership.
  have hversion : changed.originalVersion = w.backend.store.lastVersion (streamName id) := by
    rw [hchanged, hsound.lastVersion_eq]
    rfl
  have hstream' := streamOf_of_id_eq hid hstream
  by_cases hpending : changed.changes = []
  · rw [Repository.save_of_no_changes hstream' hpending]
  · obtain ⟨staged, hstaged⟩ := Staged.exists_ofEnvelopes (supply w.backend.drawn) 0
      (encodable_outgoing hchanges)
    have happend : w.backend.store.append (supply w.backend.drawn) (streamName id)
        (Repository.outgoing changed) (some changed.originalVersion) = .ok _ :=
      Store.append_eq_ok_iff.mpr ⟨hnamed, .inr (congrArg some hversion), staged, hstaged, rfl, rfl⟩
    rw [← hkept] at happend
    obtain ⟨after, hsave, -⟩ := Repository.save_of_stored hbackend hstream' hpending happend
    rw [hsave]

/-- After any calls, of which appends may have brought in decoded events or others, a load of an
order is answered in one of these ways, with any catalog.

The order is missing if its stream has no members, and for no other reason unless an event is
decoded to that very error. The first event that cannot be decoded decides, if there is one,
whatever stands before it; and if every event can be decoded, but not to an order event, that was
not expected. Otherwise the order has applied all events of its stream in version order, stands at
the last version of the stream and has nothing pending.

What the order accepts right after it was loaded can be saved behind the version it was loaded
at. -/
theorem load_exact [DecidableEq η] (hbackend : r.backend = Memory.backend supply)
    (hrule : r.names.rules.get? typeName = some typeHashId) (w : World Memory η ω) (id : String)
    (calls : List (LogCall ε)) :
    let memory := (converse (Memory.access supply) calls .empty).2
    let members := memory.store.members (streamName id)
    let bodies := memory.store.bodies (streamName id)
    let version := memory.store.lastVersion (streamName id)
    let loaded := r.load (aggregateType ε) id { w with backend := memory }
    let missing := Error.aggregateNotFound typeName id
    (loaded.1 = .error missing ↔
      members = [] ∨ Except.FirstFailure r.catalog.decodeBody bodies missing) ∧
    (r.catalog.Plain → (loaded.1 = .error missing ↔ members = [])) ∧
    (∀ before body rest e, bodies = before ++ body :: rest →
      (∀ earlier ∈ before, ∃ event, r.catalog.decodeBody earlier = .ok event) →
        r.catalog.Undecodable body e → loaded.1 = .error e) ∧
    (∀ decoded, bodies.mapM r.catalog.decodeBody = .ok decoded →
      ((∃ event ∈ decoded, event.data? OrderEvent = none) →
        ∃ cause, loaded.1 = .error (.unexpected cause)) ∧
      ∀ events : List OrderEvent, decoded.map (Event.data? OrderEvent) = events.map some →
        members ≠ [] →
          loaded.1 = .ok ⟨id, version, version, [], events.foldl OrderState.apply .initial⟩) ∧
    ∀ order, loaded.1 = .ok order → ∀ commands changed, handleAll commands order = .ok changed →
      (r.save (aggregateType ε) changed (some changed.originalVersion) loaded.2).1 = .ok () := by
  intro memory members bodies version loaded missing
  have hsound : memory.store.Sound := Memory.sound_converse supply Memory.sound_empty calls
  have hanswer : loaded.1 = r.assemble (aggregateType ε) id
      (memory.store.read (streamName id)) :=
    Repository.load_answer hbackend (streamOf_of_rule hrule id) (streamName_ne_empty id)
  have hnone : members = [] → loaded.1 = .error missing :=
    fun h => hanswer.trans (Repository.assemble_of_no_members hsound h)
  have hfailure : ∀ e, Except.FirstFailure r.catalog.decodeBody bodies e → loaded.1 = .error e :=
    fun e h => hanswer.trans (Repository.assemble_of_firstFailure hsound h)
  refine ⟨?missing, ?plain, ?undecodable, fun decoded hdecoded => ⟨?foreign, ?applied⟩, ?saved⟩
  case missing =>
    constructor
    · intro h
      exact Repository.missing_cases hsound (hanswer.symm.trans h)
    · rintro (h | h)
      · exact hnone h
      · exact hfailure missing h
  case plain =>
    intro plain
    constructor
    · intro h
      exact Repository.members_eq_nil_of_notFound hsound plain (hanswer.symm.trans h)
    · exact hnone
  case undecodable =>
    intro before body rest e hbodies hbefore hbody
    exact hfailure e ⟨before, body, rest, hbodies, hbefore,
      EventCatalog.decodeBody_eq_error_iff.mpr hbody⟩
  case foreign =>
    intro hforeign
    obtain ⟨cause, hrefused⟩ := exists_cause_of_mem hforeign
    obtain ⟨event, hevent, -⟩ := hforeign
    have hmembers := Repository.members_ne_nil_of_mem hsound hdecoded hevent
    refine ⟨cause, ?_⟩
    rw [hanswer, Repository.assemble_of_decoded hsound hdecoded hmembers]
    exact congrArg (Except.map _) hrefused
  case applied =>
    intro events hevents hmembers
    have hversion : version = members.length := hsound.lastVersion_eq _
    have hchanges : decoded.mapM (aggregateType ε).transitions.change? = _ := mapM_change? hevents
    rw [hanswer, Repository.assemble_of_decoded hsound hdecoded hmembers, hchanges, hversion]
    simp only [Except.map, List.foldl_map]
    rfl
  case saved =>
    intro order hloaded commands changed hcommands
    exact save_of_load hbackend hrule hsound hloaded hcommands

/-- A note that no order event is, and behind it an event that nobody has registered. -/
theorem load_exact_unregistered_behind_note :
    let r : Repository OrderEvent Memory Nat Unit :=
      ⟨Memory.backend countingSupply, ⟨.ofList [(typeName, typeHashId)]⟩,
        ((catalog OrderEvent).registerAll [.raw "Noted" ""]).2,
        fun _ _ listeners => (listeners, []), none⟩
    let calls : List (LogCall OrderEvent) :=
      [.append "order#7" [.fresh "7" (.raw "Noted" ""), .fresh "7" (.raw "Gone" "")] none]
    let memory := (converse (Memory.access countingSupply) calls .empty).2
    (r.load (aggregateType OrderEvent) "7" ⟨memory, .empty, (), none, 0⟩).1 =
      .error (.unknownEventType "Gone") := by
  intro r calls memory
  have hrule : r.names.rules.get? typeName = some typeHashId := rfl
  obtain ⟨-, -, hfirst, -⟩ :=
    load_exact (r := r) rfl hrule ⟨.empty, .empty, (), none, 0⟩ "7" calls
  have hbodies : memory.store.bodies (streamName "7") = [_] ++ _ :: [] := rfl
  refine hfirst _ _ _ _ hbodies ?_ (.unregistered rfl)
  intro earlier hearlier
  cases List.mem_singleton.mp hearlier
  exact ⟨_, rfl⟩

end EventLog.Order
