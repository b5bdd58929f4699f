/-
# How far an order is replayed

An envelope is refused by an order for one of two reasons: its event has a name that no order
event has, or it has such a name and is not the event that goes by it, be it that nobody has
decoded it or that another family of events uses the name as well. `Order.refusal` is the error
in either case. Any other envelope holds an order event, and its effect is applied.

So what a replay does can be said of any history beforehand (`Order.rebuild_eq`). It ends at the
first envelope that is refused, and what has been applied by then is the history before it.
-/

import EventLog.Proofs.Order.Handling

namespace EventLog.Order

variable {ε : Type} [EventType ε] [Includes OrderEvent ε]

/-- The error with which an order refuses an event, unless the event is one of its own. -/
def refusal (event : Event ε) : Option Error :=
  if event.name ∉ OrderEvent.names then
    some (.unexpected (typeName ++ " has no transition for event " ++ event.name))
  else if event.data? OrderEvent = none then
    some (.unexpected (typeName ++ " received undecoded payload for event " ++ event.name))
  else none

/-- An order event goes by one of the names. -/
theorem name_mem_of_data? {event : Event ε} {e : OrderEvent} (h : event.data? OrderEvent = some e) :
    event.name ∈ OrderEvent.names := by
  cases event with
  | raw name payload => cases h
  | typed data =>
      obtain rfl := (Includes.project_eq_some_iff data e).mp h
      obtain ⟨blank, hblank, hname⟩ := e.exists_blank
      have hevent : (Event.typed (Includes.inject e) : Event ε).name = e.name :=
        Includes.name_inject e
      rw [hevent, ← hname]
      exact List.mem_map_of_mem hblank

/-- The order events are those that are not refused. -/
theorem refusal_eq_none_iff {event : Event ε} :
    refusal event = none ↔ ∃ e, event.data? OrderEvent = some e := by
  rw [refusal, ← Option.ne_none_iff_exists']
  by_cases hdata : event.data? OrderEvent = none
  · by_cases hname : event.name ∈ OrderEvent.names <;> simp [hdata, hname]
  · obtain ⟨e, he⟩ := Option.ne_none_iff_exists'.mp hdata
    simp [name_mem_of_data? he, hdata]

/-- No transition takes an event that is no order event. -/
theorem bind_transitionOf {event : Event ε} (h : event.data? OrderEvent = none)
    (blank : OrderEvent) : (event.data? ε).bind (transitionOf ε blank) = none := by
  cases event with
  | raw name payload => rfl
  | typed data =>
      have hother : Includes.project (δ := OrderEvent) data = none := h
      show transitionOf ε blank data = none
      rw [transitionOf, hother]

/-- The table refuses with this error. -/
theorem change?_of_refusal {event : Event ε} {e : Error} (h : refusal event = some e) :
    (transitions ε).change? event = .error e := by
  have hnames : (registrations ε).map Prod.fst = OrderEvent.names := rfl
  rw [transitions_eq_ofList, Transitions.change?_ofList]
  rw [refusal] at h
  cases hlast : lastUnder event.name (registrations ε) with
  | none =>
      rw [lastUnder_eq_none_iff, hnames] at hlast
      rw [if_pos hlast] at h
      cases h
      rfl
  | some transition =>
      have hmem := mem_of_lastUnder hlast
      have hname : event.name ∈ OrderEvent.names := hnames ▸ List.mem_map_of_mem hmem
      obtain ⟨blank, -, hblank⟩ := List.mem_map.mp hmem
      obtain ⟨-, rfl⟩ := Prod.mk.inj hblank
      rw [if_neg (not_not.mpr hname)] at h
      by_cases hdata : event.data? OrderEvent = none
      · rw [if_pos hdata] at h
        cases h
        dsimp only
        rw [bind_transitionOf hdata]
      · rw [if_neg hdata] at h
        cases h

/-- The order as it is once these envelopes have been applied. -/
def replayed (order : Order ε) (history : List (Envelope ε)) : Order ε where
  id := order.id
  originalVersion :=
    if history = [] then order.originalVersion else order.currentVersion + history.length
  currentVersion := order.currentVersion + history.length
  changes := order.changes
  state := (history.filterMap fun envelope => envelope.event.data? OrderEvent).foldl
    OrderState.apply order.state

theorem replayed_nil (order : Order ε) : order.replayed [] = order := by
  simp [replayed]

/-- The first of the envelopes brings the versions together. -/
theorem replayed_cons {order : Order ε} {envelope : Envelope ε} {e : OrderEvent}
    (h : envelope.event.data? OrderEvent = some e) (rest : List (Envelope ε)) :
    order.replayed (envelope :: rest) = replayed ⟨order.id, order.currentVersion + 1,
      order.currentVersion + 1, order.changes, order.state.apply e⟩ rest := by
  have hlength : order.currentVersion + (envelope :: rest).length =
      order.currentVersion + 1 + rest.length := by
    rw [List.length_cons]
    push_cast
    omega
  rw [replayed, replayed, if_neg (List.cons_ne_nil _ _), hlength,
    List.filterMap_cons_some (by exact h), List.foldl_cons]
  cases rest with
  | nil => simp
  | cons next later => rw [if_neg (List.cons_ne_nil _ _)]

/-- A replay answers with the error of the first envelope that is refused, if there is one, and
has applied the envelopes before it. -/
theorem rebuild_eq (order : Order ε) (history : List (Envelope ε)) :
    order.rebuild (aggregateType ε) history =
      (match history.findSome? fun envelope => refusal envelope.event with
        | some e => .error e
        | none => .ok (),
      order.replayed (history.takeWhile fun envelope => refusal envelope.event = none)) := by
  induction history generalizing order with
  | nil => rw [List.takeWhile_nil, replayed_nil]; rfl
  | cons envelope rest ih =>
      rw [List.findSome?_cons]
      cases hrefusal : refusal envelope.event with
      | some e =>
          have hchange : (aggregateType ε).transitions.change? envelope.event = .error e :=
            change?_of_refusal hrefusal
          rw [Aggregate.rebuild_cons_of_error hchange,
            List.takeWhile_cons_of_neg (by simp [hrefusal]), replayed_nil]
      | none =>
          obtain ⟨e, he⟩ := refusal_eq_none_iff.mp hrefusal
          have hchange : (aggregateType ε).transitions.change? envelope.event =
              .ok fun s => s.apply e := change?_of_data? he
          rw [Aggregate.rebuild_cons_of_ok hchange, ih,
            List.takeWhile_cons_of_pos (by simp [hrefusal]), replayed_cons he]

/-- Take any order, any history in two parts, and any table of transitions, made by registering
one after another under any names.

To replay both parts is to replay the first and, if it was replayed to its end, the second. A
replay ends at the first envelope that is refused, with the error that says why: no order event has
the name of its event, or the event was not decoded to the order event of that name. What comes of
the order is what comes of it if the envelopes before this one are all there are. These are applied
one by one: the current version counts them, the original version is brought up to it unless there
are none, the state is moved by their effects, and the identity and the pending changes are what
they were.

A table gives an event to the transition that was registered last under its name. If there is none,
or if it takes no such event, that was not expected, and the state is what it was. -/
theorem replay_exact {α τ : Type} [EventType α] (order : Order ε)
    (history later : List (Envelope ε)) (tableName : String)
    (registrations : List (String × Transition α τ)) (event : Event α) (state : τ) :
    let type := aggregateType ε
    let table := Transitions.ofList tableName registrations
    let applied := history.takeWhile fun envelope => refusal envelope.event = none
    order.rebuild type (history ++ later) =
      (match order.rebuild type history with
      | (.ok (), reached) => reached.rebuild type later
      | (.error e, reached) => (.error e, reached)) ∧
    order.rebuild type history =
      (match history.findSome? fun envelope => refusal envelope.event with
        | some e => .error e
        | none => .ok (),
      order.replayed applied) ∧
    order.rebuild type applied = (.ok (), order.replayed applied) ∧
    (table.apply event state).settle state =
      match lastUnder event.name registrations with
      | none =>
        (.error (.unexpected (tableName ++ " has no transition for event " ++ event.name)), state)
      | some transition =>
        match (event.data? α).bind transition with
        | none =>
          (.error (.unexpected
            (tableName ++ " received undecoded payload for event " ++ event.name)), state)
        | some change => (.ok (), change state) := by
  intro type table applied
  refine ⟨?_, rebuild_eq order history, ?_, ?_⟩
  · rw [Aggregate.rebuild_append]
    rcases order.rebuild type history with ⟨e | done, reached⟩ <;> rfl
  · -- Of the envelopes in front none is refused.
    have hfits : ∀ envelope ∈ applied, refusal envelope.event = none := by
      intro envelope henvelope
      simpa using List.mem_takeWhile_imp henvelope
    have hnone : applied.findSome? (fun envelope => refusal envelope.event) = none :=
      List.findSome?_eq_none_iff.mpr hfits
    have hall : applied.takeWhile (fun envelope => refusal envelope.event = none) = applied :=
      List.takeWhile_eq_self_iff.mpr fun envelope henvelope =>
        decide_eq_true (hfits envelope henvelope)
    rw [rebuild_eq, hnone, hall]
  · rw [Transitions.apply, Transitions.change?_ofList]
    cases lastUnder event.name registrations with
    | none => rfl
    | some transition =>
        dsimp only
        cases (event.data? α).bind transition <;> rfl

/-- A confirmation that nobody has decoded, behind a change of items and in front of another. -/
example :
    let order : Order OrderEvent := .new (aggregateType OrderEvent) "7"
    let changed : Envelope OrderEvent := .fresh "7" (.typed (.itemsUpdated ⟨[⟨.nil, 2⟩], none⟩))
    let undecoded : Envelope OrderEvent := .fresh "7" (.raw "OrderConfirmed" "")
    order.rebuild (aggregateType OrderEvent) [changed, undecoded, changed] =
      (.error (.unexpected "Order received undecoded payload for event OrderConfirmed"),
        ⟨"7", 1, 1, [], { OrderState.initial with items := [⟨.nil, 2⟩] }⟩) :=
  rfl

end EventLog.Order
