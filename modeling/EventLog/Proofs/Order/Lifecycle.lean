/-
# The life of an order

A new order is given one command after another, and whatever it is given it lives the same
life: it is created, confirmed, shipped and delivered, in this order, and may be cancelled at
any time before it is delivered. `OrderStatus.LeadsTo` draws these steps. The guards of the
commands and the effects of the events are written apart from each other and from this
picture; that they add up to it is `Order.lifecycle`.

The statuses alone do not carry the induction. `OrderState.Reflects` says what each of the
other fields has to do with the status and with the events that the order has raised, and it
is this that a decided event keeps. A refused command leaves no trace at all.
-/

import EventLog.Proofs.Order.Handling
import Mathlib.Algebra.Ring.Int.Defs
import Mathlib.Algebra.Ring.Nat
import Mathlib.Data.List.Destutter

namespace EventLog

/-! ## Quantities -/

namespace OrderItem

theorem totalQuantity_eq_sum (items : List OrderItem) :
    totalQuantity items = (items.map fun item => item.quantity.toInt).sum := by
  have hfrom : ∀ total : Int,
      items.foldl (fun total item => total + item.quantity.toInt) total =
        total + (items.map fun item => item.quantity.toInt).sum := by
    induction items with
    | nil => simp
    | cons item rest ih =>
        intro total
        rw [List.foldl_cons, ih, List.map_cons, List.sum_cons, Int.add_assoc]
  rw [totalQuantity, hfrom, Int.zero_add]

/-- Each of some positive quantities counts at least once and at most as often as a quantity
can say. -/
theorem totalQuantity_bounds {items : List OrderItem}
    (h : ∀ item ∈ items, 0 < item.quantity.toInt) :
    (items.length : Int) ≤ totalQuantity items ∧
      totalQuantity items ≤ items.length * (2 ^ 31 - 1) := by
  rw [totalQuantity_eq_sum]
  induction items with
  | nil => simp
  | cons item rest ih =>
      obtain ⟨hleast, hmost⟩ := ih fun other hother => h other (List.mem_cons_of_mem _ hother)
      have hpositive := h item List.mem_cons_self
      have hlargest : item.quantity.toInt ≤ 2 ^ 31 - 1 := item.quantity.toInt_le
      rw [List.map_cons, List.sum_cons, List.length_cons]
      push_cast
      omega

theorem totalQuantity_pos {items : List OrderItem} (hsome : items ≠ [])
    (h : ∀ item ∈ items, 0 < item.quantity.toInt) : 0 < totalQuantity items := by
  obtain ⟨hleast, -⟩ := totalQuantity_bounds h
  have hlength := List.length_pos_of_ne_nil hsome
  omega

/-- A sum of fewer than `2 ^ 32` positive quantities stays within 64 bits all the way. -/
theorem totalQuantity_fits {items : List OrderItem}
    (h : ∀ item ∈ items, 0 < item.quantity.toInt) (hlength : items.length < 2 ^ 32)
    {front : List OrderItem} (hfront : front <+: items) :
    0 ≤ totalQuantity front ∧ totalQuantity front < 2 ^ 63 := by
  obtain ⟨hleast, hmost⟩ := totalQuantity_bounds fun item hitem => h item (hfront.subset hitem)
  have hle := hfront.length_le
  omega

end OrderItem

/-! ## Statuses -/

/-- The steps of an order's life; before the first it has no status. -/
inductive OrderStatus.LeadsTo : Option OrderStatus → Option OrderStatus → Prop
  | created : LeadsTo none (some .created)
  | confirmed : LeadsTo (some .created) (some .confirmed)
  | shipped : LeadsTo (some .confirmed) (some .shipped)
  | delivered : LeadsTo (some .shipped) (some .delivered)
  | cancelled {status : OrderStatus} (hopen : status.isFinal = false) :
      LeadsTo (some status) (some .cancelled)

/-- Where each element is the one before or a step from it, leaving out repetitions leaves
steps only. -/
theorem isChain_destutter' {α : Type} [DecidableEq α] {R : α → α → Prop} {a : α} {rest : List α}
    (h : (a :: rest).IsChain fun a b => b = a ∨ R a b) :
    (rest.destutter' (· ≠ ·) a).head? = some a ∧ (rest.destutter' (· ≠ ·) a).IsChain R := by
  induction rest generalizing a with
  | nil => exact ⟨rfl, .singleton a⟩
  | cons b rest ih =>
      rw [List.isChain_cons_cons] at h
      obtain ⟨hstep, hrest⟩ := h
      by_cases heq : a = b
      · subst heq
        rw [List.destutter'_cons_neg _ (not_not.mpr rfl)]
        exact ih hrest
      · obtain ⟨hhead, hchain⟩ := ih hrest
        rw [List.destutter'_cons_pos _ heq]
        refine ⟨rfl, List.isChain_cons.mpr ⟨fun next hnext => ?_, hchain⟩⟩
        rw [hhead] at hnext
        cases hnext
        exact hstep.resolve_left (Ne.symm heq)

/-! ## States and the events behind them -/

namespace OrderEvent

/-- The items that the event puts in place of any others. -/
def items? : OrderEvent → Option (List OrderItem)
  | created event => some event.items
  | itemsUpdated event => some event.items
  | _ => none

end OrderEvent

namespace OrderCommand

/-- The items that the command asks for. -/
def items? : OrderCommand → Option (List OrderItem)
  | create _ items => some items
  | updateItems items _ => some items
  | _ => none

end OrderCommand

namespace OrderState

/-- What the fields of a state say of each other and of the events that led to it. -/
structure Reflects (events : List OrderEvent) (s : OrderState) : Prop where
  status_eq_none_iff : s.status = none ↔ events = []
  customerId_eq_none_iff : s.customerId = none ↔ events = []
  items_eq_nil_iff : s.items = [] ↔ events = []
  quantities : ∀ item ∈ s.items, 0 < item.quantity.toInt
  confirmedAt_iff : s.confirmedAt.isSome ↔ ∃ event, OrderEvent.confirmed event ∈ events
  confirmedAt_of_status : s.status = some .confirmed ∨ s.status = some .shipped ∨
    s.status = some .delivered → s.confirmedAt.isSome
  trackingNumber_iff : s.trackingNumber.isSome ↔ ∃ event, OrderEvent.shipped event ∈ events
  carrier_iff : s.carrier.isSome ↔ ∃ event, OrderEvent.shipped event ∈ events
  shipment_of_status : s.status = some .shipped ∨ s.status = some .delivered →
    s.trackingNumber.isSome ∧ s.carrier.isSome
  /-- Something of a tracking number is left after trimming. -/
  trim_trackingNumber : ∀ number, s.trackingNumber = some number → Text.trim number.toList ≠ []
  deliveredAt_iff : s.deliveredAt.isSome ↔ s.status = some .delivered
  cancelledReason_eq_none : s.status ≠ some .cancelled → s.cancelledReason = none
  /-- The items are those of the last event that brought any. -/
  items_eq : s.items = (events.filterMap OrderEvent.items?).getLast?.getD []

theorem Reflects.initial : Reflects [] OrderState.initial := by
  constructor <;> simp [OrderState.initial]

/-- An event that was decided keeps all this. -/
theorem Reflects.apply {events : List OrderEvent} {s : OrderState} {now : Timestamp}
    {command : OrderCommand} {e : OrderEvent} (h : s.Reflects events)
    (hdecision : s.Decision now command e) : (s.apply e).Reflects (events ++ [e]) := by
  obtain ⟨hstatus, hcustomer, hitems, hquantities, hconfirmedAt, hconfirmed, htracking, hcarrier,
    hshipment, htrim, hdelivered, hcancelled, hlast⟩ := h
  cases hdecision with
  | created hnone horderable =>
      obtain ⟨hsome, hpositive⟩ := horderable
      constructor <;> simp_all [OrderState.apply, OrderEvent.items?]
  | itemsUpdated hcreated horderable =>
      obtain ⟨hsome, hpositive⟩ := horderable
      constructor <;> simp_all [OrderState.apply, OrderEvent.items?]
  | confirmed hcreated => constructor <;> simp_all [OrderState.apply, OrderEvent.items?]
  | @shipped trackingNumber _ _ hblank =>
      have hleft : Text.trim trackingNumber.toList ≠ [] := Text.trim_ne_nil_iff.mpr hblank
      constructor <;> simp_all [OrderState.apply, OrderEvent.items?]
  | delivered hshipped => constructor <;> simp_all [OrderState.apply, OrderEvent.items?]
  | @cancelled _ _ status hother hopen =>
      have hundelivered : status ≠ .delivered := by
        rintro rfl
        cases hopen
      constructor <;> simp_all [OrderState.apply, OrderEvent.items?]

/-- A decided event leaves the status as it is or takes one step. -/
theorem Decision.status_eq_or_leadsTo {s : OrderState} {now : Timestamp} {command : OrderCommand}
    {e : OrderEvent} (h : s.Decision now command e) :
    (s.apply e).status = s.status ∨ OrderStatus.LeadsTo s.status (s.apply e).status := by
  cases h with
  | created hstatus => exact .inr (hstatus ▸ .created)
  | itemsUpdated => exact .inl rfl
  | confirmed hstatus => exact .inr (hstatus ▸ .confirmed)
  | shipped hstatus => exact .inr (hstatus ▸ .shipped)
  | delivered hstatus => exact .inr (hstatus ▸ .delivered)
  | cancelled hstatus hopen => exact .inr (hstatus ▸ .cancelled hopen)

/-- Every step of an order's life can be taken. -/
theorem exists_decision_of_leadsTo {s : OrderState} {next : Option OrderStatus}
    (h : OrderStatus.LeadsTo s.status next) (now : Timestamp) :
    ∃ command e, s.Decision now command e ∧ (s.apply e).status = next := by
  generalize hstatus : s.status = status at h
  cases h with
  | created =>
      have horderable : Orderable [⟨.nil, 1⟩] := ⟨List.cons_ne_nil _ _, by decide⟩
      exact ⟨.create .nil [⟨.nil, 1⟩], _, .created hstatus horderable, rfl⟩
  | confirmed => exact ⟨.confirm, _, .confirmed hstatus, rfl⟩
  | shipped => exact ⟨.ship "1" "", _, .shipped hstatus (by decide), rfl⟩
  | delivered => exact ⟨.deliver none, _, .delivered hstatus, rfl⟩
  | cancelled hopen => exact ⟨.cancel none none, _, .cancelled hstatus hopen, rfl⟩

/-- It brings the items that its command asked for. -/
theorem Decision.items?_eq {s : OrderState} {now : Timestamp} {command : OrderCommand}
    {e : OrderEvent} (h : s.Decision now command e) : e.items? = command.items? := by
  cases h <;> rfl

/-- Nothing is decided any more once the status is final. -/
theorem Decision.isFinal_eq_false {s : OrderState} {now : Timestamp} {command : OrderCommand}
    {e : OrderEvent} (h : s.Decision now command e) {status : OrderStatus}
    (hstatus : s.status = some status) : status.isFinal = false := by
  cases h with
  | created hnone => rw [hnone] at hstatus; cases hstatus
  | itemsUpdated hcreated => rw [hcreated] at hstatus; cases hstatus; rfl
  | confirmed hcreated => rw [hcreated] at hstatus; cases hstatus; rfl
  | shipped hconfirmed => rw [hconfirmed] at hstatus; cases hstatus; rfl
  | delivered hshipped => rw [hshipped] at hstatus; cases hstatus; rfl
  | cancelled hother hopen => rw [hother] at hstatus; cases hstatus; exact hopen

end OrderState

/-! ## Orders under commands -/

namespace Order

variable {ε : Type} [EventType ε] [Includes OrderEvent ε]

/-- Ask for a command at a time; a refusal leaves the order as it is. -/
def offer (order : Order ε) (command : Timestamp × OrderCommand) : Order ε :=
  match handle command.1 command.2 order with
  | .error _ => order
  | .ok after => after

theorem offer_of_error {order : Order ε} {now : Timestamp} {command : OrderCommand} {e : Error}
    (h : handle now command order = .error e) : order.offer (now, command) = order := by
  rw [offer, h]

theorem offer_of_ok {order after : Order ε} {now : Timestamp} {command : OrderCommand}
    (h : handle now command order = .ok after) : order.offer (now, command) = after := by
  rw [offer, h]

def offerAll (commands : List (Timestamp × OrderCommand)) (order : Order ε) : Order ε :=
  commands.foldl offer order

theorem offerAll_cons (command : Timestamp × OrderCommand)
    (rest : List (Timestamp × OrderCommand)) (order : Order ε) :
    offerAll (command :: rest) order = offerAll rest (order.offer command) := rfl

/-- The commands among these that are not refused. -/
def accepted : List (Timestamp × OrderCommand) → Order ε → List OrderCommand
  | [], _ => []
  | command :: rest, order =>
    match handle command.1 command.2 order with
    | .error _ => accepted rest order
    | .ok after => command.2 :: accepted rest after

/-- The statuses that the order goes through, the first one before any command. -/
def statuses (commands : List (Timestamp × OrderCommand)) (order : Order ε) :
    List (Option OrderStatus) :=
  (commands.scanl offer order).map fun order => order.state.status

/-- The order events among the pending changes. -/
def raised (order : Order ε) : List OrderEvent :=
  order.changes.filterMap fun change => change.event.data? OrderEvent

theorem filterMap_change (id : String) (events : List OrderEvent) :
    ((events.map (change id) : List (Envelope ε)).filterMap fun change =>
      change.event.data? OrderEvent) = events := by
  rw [List.filterMap_map]
  exact (List.filterMap_congr fun e _ => Event.data?_typed_inject e).trans List.filterMap_some

/-- A command is refused, or it is decided and its event is pending and has had its effect. -/
theorem offer_cases (order : Order ε) (now : Timestamp) (command : OrderCommand) :
    (∃ e, handle now command order = .error e ∧ order.offer (now, command) = order) ∨
      ∃ e after, order.state.Decision now command e ∧ handle now command order = .ok after ∧
        order.offer (now, command) = after ∧
        after = ⟨order.id, order.originalVersion, order.currentVersion + 1,
          order.changes ++ [change order.id e], order.state.apply e⟩ := by
  cases hhandle : handle now command order with
  | error e => exact .inl ⟨e, rfl, offer_of_error hhandle⟩
  | ok after =>
      obtain ⟨e, hdecided, hafter⟩ := handle_eq_ok_iff.mp hhandle
      exact .inr ⟨e, after, OrderState.decide_eq_ok_iff.mp hdecided, rfl, offer_of_ok hhandle,
        hafter⟩

/-- Whatever step may come next, there is a command that takes it. -/
theorem exists_offer_of_leadsTo {order : Order ε} {next : Option OrderStatus}
    (h : OrderStatus.LeadsTo order.state.status next) (now : Timestamp) :
    ∃ command, (order.offer (now, command)).state.status = next := by
  obtain ⟨command, e, hdecision, hnext⟩ := OrderState.exists_decision_of_leadsTo h now
  refine ⟨command, ?_⟩
  rw [offer_of_ok (handle_eq_ok_iff.mpr ⟨e, OrderState.decide_eq_ok_iff.mpr hdecision, rfl⟩)]
  exact hnext

/-- Each command leaves the status as it is or moves the order one step. -/
theorem isChain_statuses (commands : List (Timestamp × OrderCommand)) (order : Order ε) :
    (statuses commands order).IsChain fun a b => b = a ∨ OrderStatus.LeadsTo a b := by
  induction commands generalizing order with
  | nil => exact .singleton _
  | cons command rest ih =>
      obtain ⟨now, command⟩ := command
      rw [statuses, List.scanl_cons, List.map_cons, List.isChain_cons]
      refine ⟨fun next hnext => ?_, ih (order.offer (now, command))⟩
      obtain rfl : (order.offer (now, command)).state.status = next := by
        cases rest <;> simpa using hnext
      rcases offer_cases order now command with
        ⟨e, -, hoffer⟩ | ⟨e, after, hdecision, -, hoffer, rfl⟩
      · exact .inl (by rw [hoffer])
      · rw [hoffer]
        exact hdecision.status_eq_or_leadsTo

/-- An order that is delivered or cancelled stays as it is. -/
theorem offerAll_of_isFinal {order : Order ε} {status : OrderStatus}
    (hstatus : order.state.status = some status) (hfinal : status.isFinal = true)
    (commands : List (Timestamp × OrderCommand)) : offerAll commands order = order := by
  induction commands with
  | nil => rfl
  | cons command rest ih =>
      obtain ⟨now, command⟩ := command
      rcases offer_cases order now command with ⟨e, -, hoffer⟩ | ⟨e, after, hdecision, -, -, -⟩
      · rw [offerAll_cons, hoffer]
        exact ih
      · rw [hdecision.isFinal_eq_false hstatus] at hfinal
        cases hfinal

/-- Every accepted command raises one event, with the items that the command asked for, and
the state goes on to say what it should of all events so far. -/
theorem exists_events_of_offerAll {past : List OrderEvent} {order : Order ε}
    (h : order.state.Reflects past) (commands : List (Timestamp × OrderCommand)) :
    ∃ events : List OrderEvent,
      (offerAll commands order).changes = order.changes ++ events.map (change order.id) ∧
      events.filterMap OrderEvent.items? =
        (accepted commands order).filterMap OrderCommand.items? ∧
      (offerAll commands order).state.Reflects (past ++ events) := by
  induction commands generalizing past order with
  | nil => exact ⟨[], by simp [offerAll], rfl, by simpa [offerAll] using h⟩
  | cons command rest ih =>
      obtain ⟨now, command⟩ := command
      rcases offer_cases order now command with
        ⟨e, hhandle, hoffer⟩ | ⟨e, after, hdecision, hhandle, hoffer, hafter⟩
      · rw [offerAll_cons, hoffer, accepted, hhandle]
        exact ih h
      · have hstate : after.state.Reflects (past ++ [e]) := by
          rw [hafter]
          exact h.apply hdecision
        obtain ⟨events, hchanges, hitems, hreflects⟩ := ih hstate
        rw [offerAll_cons, hoffer, accepted, hhandle]
        refine ⟨e :: events, ?_, ?_, by simpa using hreflects⟩
        · rw [hchanges, hafter]
          simp
        · rw [List.filterMap_cons, hitems, hdecision.items?_eq, List.filterMap_cons]

/-- However an order came to be what it is by commands alone, its statuses followed the steps
of its life, every step that may come next can be taken, and it stays as it is once it is
delivered or cancelled. Its pending changes are the events it has raised, and its fields say
what they should of its status and of these events: among the rest, it has the items that were
asked for last. The sum of the quantities is exact in 64 bits. -/
theorem lifecycle (id : String) (commands : List (Timestamp × OrderCommand)) :
    let fresh : Order ε := .new (aggregateType ε) id
    let order := offerAll commands fresh
    (((statuses commands fresh).destutter (· ≠ ·)).head? = some none ∧
      ((statuses commands fresh).destutter (· ≠ ·)).IsChain OrderStatus.LeadsTo) ∧
    (∀ next now, OrderStatus.LeadsTo order.state.status next →
      ∃ command, (order.offer (now, command)).state.status = next) ∧
    (∀ status, order.state.status = some status → status.isFinal = true →
      ∀ later, offerAll later order = order) ∧
    order.changes = order.raised.map (change id) ∧
    order.state.Reflects order.raised ∧
    order.state.items =
      ((accepted commands fresh).filterMap OrderCommand.items?).getLast?.getD [] ∧
    (order.state.totalQuantity = (order.state.items.map fun item => item.quantity.toInt).sum ∧
      (order.state.status ≠ none → 0 < order.state.totalQuantity) ∧
      (order.state.items.length < 2 ^ 32 → ∀ front, front <+: order.state.items →
        0 ≤ OrderItem.totalQuantity front ∧ OrderItem.totalQuantity front < 2 ^ 63)) := by
  intro fresh order
  have hstart : fresh.state.Reflects [] := OrderState.Reflects.initial
  obtain ⟨events, hchanges, hitems, hreflects⟩ := exists_events_of_offerAll hstart commands
  rw [List.nil_append] at hreflects
  replace hchanges : order.changes = events.map (change id) := hchanges
  have hraised : order.raised = events := by
    rw [raised, hchanges]
    exact filterMap_change id events
  have hchain := isChain_statuses commands fresh
  rw [hraised]
  refine ⟨?_, fun next now hnext => exists_offer_of_leadsTo hnext now,
    fun status hstatus hfinal later => offerAll_of_isFinal hstatus hfinal later, hchanges,
    hreflects, ?_, OrderItem.totalQuantity_eq_sum _, fun hsome => ?_,
    fun hlength front hfront =>
      OrderItem.totalQuantity_fits hreflects.quantities hlength hfront⟩
  · cases commands with
    | nil => exact isChain_destutter' hchain
    | cons command rest =>
        rw [statuses, List.scanl_cons, List.map_cons] at hchain ⊢
        exact isChain_destutter' hchain
  · rw [hreflects.items_eq, hitems]
  · refine OrderItem.totalQuantity_pos (fun hnil => hsome ?_) hreflects.quantities
    exact hreflects.status_eq_none_iff.mpr (hreflects.items_eq_nil_iff.mp hnil)

/-- A whole life, with five commands on the way that are refused. -/
example :
    let items : List OrderItem := [⟨.nil, 3⟩]
    let asked : List OrderCommand :=
      [.confirm, .create .nil items, .ship "T-1" "post", .confirm, .ship " " "post",
        .ship "T-1" "post", .create .nil items, .deliver none, .cancel none none]
    let commands := asked.map fun command => (Timestamp.epoch, command)
    (statuses commands (.new (aggregateType OrderEvent) "o-1")).destutter (· ≠ ·) =
      [none, some .created, some .confirmed, some .shipped, some .delivered] := by
  decide

end Order

end EventLog
