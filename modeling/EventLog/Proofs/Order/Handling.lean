/-
# Handling commands and reading what came of them

A handled command appends one event to the pending changes and moves the state by that
event (`Order.handle_eq_ok_iff`); several commands, by as many events
(`Order.exists_events_of_handleAll`). Once these events are stored, a catalog that knows the
order events decodes each to itself and the stream replays to the same state
(`Order.replay_stored`). This is where the encoding of payloads matters, and why the clock
may only say what a payload can carry.
-/

import EventLog.Proofs.Aggregate.Replay
import EventLog.Proofs.Order.Codec
import EventLog.Proofs.Order.Decision
import EventLog.Proofs.Repository.InMemory

namespace EventLog

/-! ## Deciding -/

/-- An event decided by a clock whose readings can be read back can itself be read back. -/
theorem OrderState.readable_of_decide {s : OrderState} {now : Timestamp} {command : OrderCommand}
    {e : OrderEvent} (h : s.decide now command = .ok e) (hnow : now.date.inRange = true) :
    e.Readable := by
  cases decide_eq_ok_iff.mp h with
  | confirmed => exact hnow
  | shipped => exact hnow
  | delivered => exact hnow
  | _ => trivial

/-- Every event has a blank of its kind. -/
theorem OrderEvent.exists_blank (e : OrderEvent) : ∃ blank ∈ blanks, blank.name = e.name := by
  cases e with
  | created e => exact ⟨.created ⟨.nil, []⟩, by simp [blanks], rfl⟩
  | itemsUpdated e => exact ⟨.itemsUpdated ⟨[], none⟩, by simp [blanks], rfl⟩
  | confirmed e => exact ⟨.confirmed ⟨.epoch⟩, by simp [blanks], rfl⟩
  | shipped e => exact ⟨.shipped ⟨"", "", .epoch⟩, by simp [blanks], rfl⟩
  | delivered e => exact ⟨.delivered ⟨.epoch, none⟩, by simp [blanks], rfl⟩
  | cancelled e => exact ⟨.cancelled ⟨none, none⟩, by simp [blanks], rfl⟩

namespace Order

variable {ε : Type} [EventType ε] [Includes OrderEvent ε]

/-- Each kind of event has its entry in the transition table. -/
theorem get?_transitions {blank : OrderEvent} (h : blank ∈ OrderEvent.blanks) :
    (transitions ε).entries.get? blank.name = some (transitionOf ε blank) := by
  simp only [OrderEvent.blanks, List.mem_cons, List.not_mem_nil, or_false] at h
  rcases h with rfl | rfl | rfl | rfl | rfl | rfl <;> rfl

/-- The transitions of orders, in the order in which they are registered. -/
def registrations (ε : Type) [EventType ε] [Includes OrderEvent ε] :
    List (String × Transition ε OrderState) :=
  OrderEvent.blanks.map fun blank => (blank.name, transitionOf ε blank)

theorem transitions_eq_ofList : transitions ε = .ofList typeName (registrations ε) := by
  rw [Transitions.ofList, registrations, List.foldl_map]
  rfl

/-- The table has no other entries. -/
theorem exists_transitionOf {name : String} {transition : Transition ε OrderState}
    (h : (transitions ε).entries.get? name = some transition) :
    ∃ blank, transition = transitionOf ε blank := by
  rw [transitions_eq_ofList, Transitions.get?_ofList] at h
  obtain ⟨blank, -, hblank⟩ := List.mem_map.mp (mem_of_lastUnder h)
  exact ⟨blank, (Prod.mk.inj hblank).2.symm⟩

/-- The change that an order event stands for is its effect. -/
theorem change?_of_data? {event : Event ε} {e : OrderEvent} (h : event.data? OrderEvent = some e) :
    (transitions ε).change? event = .ok fun s => s.apply e := by
  cases event with
  | raw name payload => cases h
  | typed data =>
      cases (Includes.project_eq_some_iff data e).mp h
      obtain ⟨blank, hblank, hname⟩ := e.exists_blank
      have hentry : (transitions ε).entries.get? e.name = some (transitionOf ε blank) := by
        rw [← hname, get?_transitions hblank]
      have hevent : (Event.typed (Includes.inject e) : Event ε).name = e.name :=
        Includes.name_inject e
      rw [Transitions.change?, hevent, hentry]
      simp [transitionOf, hname]

/-- Any other event is refused. -/
theorem exists_cause_of_data? {event : Event ε} (h : event.data? OrderEvent = none) :
    ∃ cause, (transitions ε).change? event = .error (.unexpected cause) := by
  unfold Transitions.change?
  cases hentry : (transitions ε).entries.get? event.name with
  | none => exact ⟨_, rfl⟩
  | some transition =>
      cases event with
      | raw name payload => exact ⟨_, rfl⟩
      | typed data =>
          obtain ⟨blank, rfl⟩ := exists_transitionOf hentry
          have hother : Includes.project (δ := OrderEvent) data = none := h
          simp only [transitionOf, hother]
          exact ⟨_, rfl⟩

/-- An order event is applied by its effect. -/
theorem apply_transitions (e : OrderEvent) (s : OrderState) :
    (transitions ε).apply (.typed (Includes.inject e)) s = .ok (s.apply e) := by
  rw [Transitions.apply, change?_of_data? (Event.data?_typed_inject e)]
  rfl

/-- An order event as a pending change of an order. -/
def change (id : String) (e : OrderEvent) : Envelope ε := .fresh id (.typed (Includes.inject e))

/-- The stream of an order is found under its identity. -/
theorem streamOf_of_id_eq {names : StreamNames} {id stream : String} {order : Order ε}
    (hid : order.id = id) (hstream : names.streamOf typeName id = .ok stream) :
    names.streamOf (aggregateType ε).name order.id = .ok stream := by
  rw [hid]
  exact hstream

/-- Order events can always be encoded. -/
theorem encodable_outgoing {order : Order ε} {id : String} {events : List OrderEvent}
    (h : order.changes = events.map (change id)) :
    ∀ envelope ∈ Repository.outgoing order, ∃ payload, envelope.event.marshal = .ok payload := by
  intro envelope henvelope
  obtain ⟨pending, hpending, rfl⟩ := List.mem_map.mp henvelope
  rw [h] at hpending
  obtain ⟨e, -, rfl⟩ := List.mem_map.mp hpending
  have hmarshal : EventType.marshal (Includes.inject e : ε) = .ok e.toJson.text :=
    Includes.marshal_inject e
  exact ⟨_, hmarshal⟩

/-- The pending change of an order event is applied as new by its effect. -/
theorem apply_change (order : Order ε) (id : String) (e : OrderEvent) :
    order.apply (aggregateType ε) (change id e) true =
      .ok ⟨order.id, order.originalVersion, order.currentVersion + 1,
        order.changes ++ [change id e], order.state.apply e⟩ :=
  Aggregate.apply_eq_ok_iff.mpr ⟨order.state.apply e, apply_transitions e order.state, rfl⟩

/-- A command that is not refused becomes one event: it is pending and has had its effect. -/
theorem handle_eq_ok_iff {now : Timestamp} {command : OrderCommand} {order after : Order ε} :
    handle now command order = .ok after ↔
      ∃ e, order.state.decide now command = .ok e ∧
        after = ⟨order.id, order.originalVersion, order.currentVersion + 1,
          order.changes ++ [change order.id e], order.state.apply e⟩ := by
  unfold handle
  cases order.state.decide now command with
  | error e => simp
  | ok e =>
      have hraise : order.raise (aggregateType ε) (Includes.inject e) =
          .ok ⟨order.id, order.originalVersion, order.currentVersion + 1,
            order.changes ++ [change order.id e], order.state.apply e⟩ :=
        apply_change order order.id e
      dsimp only
      rw [hraise]
      simp [eq_comm]

/-- Handle commands one after another, each at its own time. -/
def handleAll (commands : List (Timestamp × OrderCommand)) (order : Order ε) :
    Except Error (Order ε) :=
  commands.foldlM (fun order command => handle command.1 command.2 order) order

/-- Handled commands leave one event each, and all that the order has become since follows
from these events. If the clock kept to readable times, every event can be read back. -/
theorem exists_events_of_handleAll {commands : List (Timestamp × OrderCommand)}
    {order after : Order ε} (h : handleAll commands order = .ok after) :
    ∃ events : List OrderEvent,
      after = ⟨order.id, order.originalVersion, order.currentVersion + events.length,
        order.changes ++ events.map (change order.id), events.foldl OrderState.apply order.state⟩ ∧
      ((∀ command ∈ commands, command.1.date.inRange = true) → ∀ e ∈ events, e.Readable) := by
  induction commands generalizing order with
  | nil =>
      cases h
      exact ⟨[], by simp, fun _ e he => by cases he⟩
  | cons command rest ih =>
      rw [handleAll, List.foldlM_cons] at h
      obtain ⟨next, hnext, h⟩ := Except.bind_eq_ok_iff.mp h
      obtain ⟨e, hdecided, rfl⟩ := handle_eq_ok_iff.mp hnext
      obtain ⟨events, rfl, hreadable⟩ := ih h
      refine ⟨e :: events, ?_, ?_⟩
      · simp only [List.length_cons, List.map_cons, List.foldl_cons, List.append_assoc,
          List.singleton_append, Aggregate.mk.injEq, and_true, true_and]
        push_cast
        omega
      · intro hclock e' he'
        rcases List.mem_cons.mp he' with rfl | he'
        · exact OrderState.readable_of_decide hdecided (hclock command List.mem_cons_self)
        · exact hreadable (fun other hother => hclock other (List.mem_cons_of_mem _ hother)) e' he'

/-! ## Reading back -/

/-- The catalog reads the payloads of order events into blanks of their kinds. -/
def Knows (catalog : EventCatalog ε) : Prop :=
  ∀ blank ∈ OrderEvent.blanks, catalog.get? blank.name = some (.typed (Includes.inject blank))

/-- The catalog of the order events knows them. -/
theorem knows_catalog : Knows (catalog ε) := by
  intro blank h
  have hname : ∀ e : OrderEvent, EventType.name (Includes.inject e : ε) = e.name :=
    Includes.name_inject
  simp only [OrderEvent.blanks, List.mem_cons, List.not_mem_nil, or_false] at h
  rcases h with rfl | rfl | rfl | rfl | rfl | rfl <;>
    simp [catalog, blankEvents, OrderEvent.blanks, EventCatalog.registerAll,
      EventCatalog.register, EventCatalog.registerAs, EventCatalog.isRegistered,
      EventCatalog.empty, EventCatalog.get?, Dictionary.contains, Dictionary.get?_insert,
      Event.name, hname, OrderEvent.name]

/-- A catalog that knows the order events decodes each to itself. -/
theorem Knows.decode {catalog : EventCatalog ε} (h : Knows catalog) {e : OrderEvent}
    (hreadable : e.Readable) :
    catalog.decode e.name e.toJson.text = .ok (.typed (Includes.inject e)) := by
  obtain ⟨blank, hblank, hname⟩ := e.exists_blank
  have hevent : EventType.unmarshal blank e.toJson.text = .ok e :=
    OrderEvent.unmarshal_toJson hname hreadable
  rw [EventCatalog.decode, ← hname, h blank hblank]
  dsimp only [Event.unmarshal]
  rw [Includes.unmarshal_inject, hevent]
  rfl

/-- So does what is stored for a pending change. -/
theorem Knows.decode_body {catalog : EventCatalog ε} (h : Knows catalog) {draw : Draw}
    {index : Nat} {id : String} {e : OrderEvent} {entry : Staged ε}
    (hentry : Staged.ofEnvelope draw index ((change id e).withHeader aggregateIdHeader id) =
      .ok entry) (hreadable : e.Readable) (now : Timestamp) :
    catalog.decode (entry.body now).name (entry.body now).payload =
      .ok (.typed (Includes.inject e)) := by
  obtain ⟨hpayload, -, henvelope⟩ := Staged.ofEnvelope_eq_ok_iff.mp hentry
  have hname : (entry.body now).name = e.name := by
    rw [Staged.body, henvelope]
    exact Includes.name_inject e
  have hmarshal : EventType.marshal (Includes.inject e : ε) = .ok e.toJson.text :=
    Includes.marshal_inject e
  have htext : (entry.body now).payload = e.toJson.text :=
    Except.ok.inj (hpayload.symm.trans hmarshal)
  rw [hname, htext]
  exact h.decode hreadable

/-- Stored order events replay to their effects. -/
theorem replay_stored {catalog : EventCatalog ε} (h : Knows catalog) {s : Store} {now : Timestamp}
    {id : String} {draw : Draw} {index : Nat} {events : List OrderEvent}
    {staged : List (Staged ε)}
    (hstaged : Staged.ofEnvelopes draw index
      (events.map fun e => (change id e).withHeader aggregateIdHeader id) = .ok staged)
    (hreadable : ∀ e ∈ events, e.Readable)
    (kept : ∀ entry ∈ staged, s.events.get? entry.eventId = some (entry.body now))
    (position current : Int) (state : OrderState) :
    s.replay catalog (aggregateType ε) state
        (Store.membersFrom position current (staged.map Staged.eventId)) =
      some (events.foldl OrderState.apply state) := by
  induction events generalizing index staged position current state with
  | nil =>
      cases hstaged
      rfl
  | cons e rest ih =>
      obtain ⟨entry, others, hentry, hothers, rfl⟩ :=
        Staged.ofEnvelopes_cons_eq_ok_iff.mp hstaged
      exact Store.replay_cons_eq_some_iff.mpr ⟨entry.body now, _, _,
        kept entry List.mem_cons_self,
        h.decode_body hentry (hreadable e List.mem_cons_self) now, apply_transitions e state,
        ih hothers (fun e he => hreadable e (List.mem_cons_of_mem _ he))
          (fun other hother => kept other (List.mem_cons_of_mem _ hother)) _ _ _⟩

end Order

end EventLog
