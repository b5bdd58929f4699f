/-
# The read model agrees with the orders

Commands are handled one after another, on any orders, over one log in memory, and the order
view is subscribed before the first of them. Every command ends in one of three ways
(`Order.Outcome`): the order it needs is missing, it is refused, or its event is stored and
published. Nobody else writes, so there is nothing to try again and the first attempt is the
only one.

After each command every order replays and the view has its summary (`Order.Agrees`). The
orders get there through the store, by encoding, decoding and transitions; the view gets
there through the bus. What ties the two together is `OrderSummary.next?_ofState?`.

Other handlers may be subscribed as well, react as they like and subscribe further ones, as
long as they keep their hands off the view.
-/

import EventLog.Order.CommandHandler
import EventLog.Proofs.Order.Registration
import EventLog.Proofs.Order.View
import EventLog.Proofs.Retry
import EventLog.Proofs.Store.AllOrNothing

namespace EventLog

/-! ## One attempt -/

variable {ε η ω : Type} [EventType ε] [Includes OrderEvent ε] [DecidableEq η]

namespace Order

variable {r : Repository ε Memory η ω} {supply : Nat → Draw} {policy : RetryPolicy}
  {now : Nat → Timestamp} {id : String} {command : OrderCommand} {w : World Memory η ω}

/-- The first attempt at a command. -/
def attempt (r : Repository ε Memory η ω) (now : Timestamp) (id : String)
    (command : OrderCommand) (w : World Memory η ω) : Except Error (Order ε) × World Memory η ω :=
  match r.loadOrNew (aggregateType ε) id w with
  | (.error e, w) => (.error e, w)
  | (.ok order, w) =>
    match act now command order with
    | .error e => (.error e, w)
    | .ok changed =>
      match r.save (aggregateType ε) changed (some changed.originalVersion) w with
      | (.error e, _, w) => (.error e, w)
      | (.ok (), saved, w) => (.ok saved, w)

/-- An attempt that does not fail in passing decides the answer. -/
theorem handleCommand_eq
    (h : ∀ e, (attempt r (now 0) id command w).1 = .error e → e.isTransient = false) :
    handleCommand r policy now id command w =
      ((attempt r (now 0) id command w).1.map Aggregate.currentVersion,
        (attempt r (now 0) id command w).2) := by
  rw [handleCommand, Repository.execute]
  generalize hoperation : (fun (_ : Nat) (state : World Memory η ω × Nat) =>
    (_ : Except Error (Order ε) × World Memory η ω × Nat)) = operation
  have hfirst : ∃ count, operation 1 (w, 0) =
      ((attempt r (now 0) id command w).1, (attempt r (now 0) id command w).2, count) := by
    rw [← hoperation]
    dsimp only
    rw [attempt]
    rcases r.loadOrNew (aggregateType ε) id w with ⟨_ | order, loaded⟩
    · exact ⟨_, rfl⟩
    · dsimp only
      cases act (now 0) command order with
      | error e => exact ⟨_, rfl⟩
      | ok changed =>
          dsimp only
          rcases r.save (aggregateType ε) changed (some changed.originalVersion) loaded with
            ⟨_ | done, saved, after⟩
          · exact ⟨_, rfl⟩
          · exact ⟨_, rfl⟩
  obtain ⟨count, hfirst⟩ := hfirst
  cases hanswer : (attempt r (now 0) id command w).1 with
  | error e =>
      rw [hanswer] at hfirst
      rw [RetryPolicy.run_of_permanent hfirst (h e hanswer)]
      rfl
  | ok order =>
      rw [hanswer] at hfirst
      rw [RetryPolicy.run_of_ok hfirst]
      rfl

/-! ## What a command comes to -/

/-- Everything that a command can come to on an order in this state. An event that is stored is
published, and the answer is the version that the stream then has. -/
inductive Outcome (r : Repository ε Memory η ω) (supply : Nat → Draw) (now : Timestamp)
    (id : String) (command : OrderCommand) (state : OrderState) (w : World Memory η ω) :
    Except Error Int × World Memory η ω → Prop
  | missing (metrics : Option Metrics)
      (hmembers : w.backend.store.members (streamName id) = []) (hcommand : command.creates = false) :
      Outcome r supply now id command state w
        (.error (.aggregateNotFound typeName id), { w with metrics })
  | refused (metrics : Option Metrics) {e : OrderError}
      (hhistory : w.backend.store.members (streamName id) = [] → command.creates = true)
      (hdecided : state.decide now command = .error e) :
      Outcome r supply now id command state w (.error e.toError, { w with metrics })
  | carriedOut (metrics : Option Metrics) {e : OrderEvent} {staged : List (Staged ε)}
      (hhistory : w.backend.store.members (streamName id) = [] → command.creates = true)
      (hdecided : state.decide now command = .ok e)
      (hprepared : Staged.ofEnvelopes (supply w.backend.drawn) 0
        [(change id e).withHeader aggregateIdHeader id] = .ok staged)
      {published : Bus η × ω}
      (hpublished : published = Bus.publishAll r.react
        (w.backend.store.placed (streamName id) staged) (w.bus, w.listeners)) :
      Outcome r supply now id command state w
        (.ok ((w.backend.store.members (streamName id)).length + 1),
          { w with
            backend := ⟨w.backend.store.grown (supply w.backend.drawn).now (streamName id) staged,
              w.backend.drawn + 1⟩
            bus := published.1
            listeners := published.2
            metrics })

theorem handle_of_refused {now : Timestamp} {order : Order ε} {e : OrderError}
    (h : order.state.decide now command = .error e) : handle now command order = .error e.toError := by
  rw [handle, h]

/-- An order that has just been loaded is acted on unless it is missing. -/
theorem act_restingOn (now : Timestamp) (id : String) (command : OrderCommand)
    (members : List Membership) (state : OrderState) :
    act now command (.restingOn id members state : Order ε) =
      if members = [] ∧ command.creates = false then .error (.aggregateNotFound typeName id)
      else handle now command (.restingOn id members state) := by
  have hlength : (members.length : Int) = 0 ↔ members = [] := by simp
  rw [act]
  simp only [Aggregate.restingOn, hlength, Bool.not_eq_true]

/-- The event of a command is stored behind all that the order rests on, and published. -/
theorem exists_save_event (hbackend : r.backend = Memory.backend supply)
    (hregistered : Registered r.catalog r.names) (hsound : w.backend.store.Sound)
    (metrics : Option Metrics) (id : String) (e : OrderEvent) (state : OrderState) :
    let version : Int := (w.backend.store.members (streamName id)).length
    let changed : Order ε := ⟨id, version, version + 1, [change id e], state⟩
    ∃ staged, Staged.ofEnvelopes (supply w.backend.drawn) 0
        [(change id e).withHeader aggregateIdHeader id] = .ok staged ∧
      ∃ after, r.save (aggregateType ε) changed (some version) { w with metrics } =
        (.ok (), changed.markSaved (version + 1),
          { w with
            backend := ⟨w.backend.store.grown (supply w.backend.drawn).now (streamName id) staged,
              w.backend.drawn + 1⟩
            bus := (Bus.publishAll r.react (w.backend.store.placed (streamName id) staged)
              (w.bus, w.listeners)).1
            listeners := (Bus.publishAll r.react (w.backend.store.placed (streamName id) staged)
              (w.bus, w.listeners)).2
            metrics := after }) := by
  intro version changed
  have hencodable : ∀ envelope ∈ Repository.outgoing changed,
      ∃ payload, envelope.event.marshal = .ok payload := by
    intro envelope henvelope
    rw [List.mem_singleton.mp henvelope]
    have hmarshal : EventType.marshal (Includes.inject e : ε) = .ok e.toJson.text :=
      Includes.marshal_inject e
    exact ⟨_, hmarshal⟩
  obtain ⟨staged, hprepared⟩ := Staged.exists_ofEnvelopes (supply w.backend.drawn) 0 hencodable
  have hversion : versionMatches (some version) (w.backend.store.lastVersion (streamName id)) :=
    .inr (congrArg some (hsound.lastVersion_eq (streamName id)).symm)
  have happend := Store.append_eq_ok_iff.mpr
    ⟨streamName_ne_empty id, hversion, staged, hprepared, rfl, rfl⟩
  exact ⟨staged, hprepared, Repository.exists_save_eq hbackend (hregistered.streamOf_eq id)
    (List.cons_ne_nil _ _) happend⟩

/-- An attempt on an order whose stream replays comes to one of these, and does not fail in
passing. -/
theorem outcome_attempt (hbackend : r.backend = Memory.backend supply)
    (hregistered : Registered r.catalog r.names) (hsound : w.backend.store.Sound)
    {state : OrderState}
    (hreplay : w.backend.store.replay r.catalog (aggregateType ε) .initial
      (w.backend.store.members (streamName id)) = some state) (now : Timestamp) :
    Outcome r supply now id command state w
        ((attempt r now id command w).1.map Aggregate.currentVersion,
          (attempt r now id command w).2) ∧
      ∀ e, (attempt r now id command w).1 = .error e → e.isTransient = false := by
  have hstream := hregistered.streamOf_eq id
  have hnamed := streamName_ne_empty id
  have hloaded : (r.loadOrNew (aggregateType ε) id w).1 = _ :=
    Repository.loadOrNew_of_replay hbackend hstream hnamed hsound hreplay
  obtain ⟨metrics, hworld⟩ : ∃ metrics, (r.loadOrNew (aggregateType ε) id w).2 = _ :=
    Repository.exists_world_loadOrNew hbackend hstream hnamed
  have hload : r.loadOrNew (aggregateType ε) id w = (.ok _, { w with metrics }) :=
    Prod.ext hloaded hworld
  rw [attempt, hload]
  dsimp only
  rw [act_restingOn]
  by_cases hmissing : w.backend.store.members (streamName id) = [] ∧ command.creates = false
  · rw [if_pos hmissing]
    refine ⟨.missing metrics hmissing.1 hmissing.2, fun e he => ?_⟩
    cases he
    rfl
  have hhistory : w.backend.store.members (streamName id) = [] → command.creates = true :=
    fun hmembers => by simpa [hmembers] using hmissing
  rw [if_neg hmissing]
  cases hdecided : state.decide now command with
  | error e =>
      have hhandle : handle now command (.restingOn id
          (w.backend.store.members (streamName id)) state : Order ε) = .error e.toError :=
        handle_of_refused hdecided
      rw [hhandle]
      refine ⟨.refused metrics hhistory hdecided, fun cause hcause => ?_⟩
      cases hcause
      rfl
  | ok e =>
      have hhandle : handle now command (.restingOn id
          (w.backend.store.members (streamName id)) state : Order ε) = .ok
            ⟨id, (w.backend.store.members (streamName id)).length,
              (w.backend.store.members (streamName id)).length + 1, [change id e],
              state.apply e⟩ :=
        handle_eq_ok_iff.mpr ⟨e, hdecided, rfl⟩
      obtain ⟨staged, hprepared, metrics, hsave⟩ :=
        exists_save_event hbackend hregistered hsound metrics id e (state.apply e)
      rw [hhandle]
      dsimp only
      rw [hsave]
      refine ⟨.carriedOut metrics hhistory hdecided hprepared rfl, fun cause hcause => ?_⟩
      cases hcause

/-- A command on an order whose stream replays comes to one of these. -/
theorem outcome_handleCommand (hbackend : r.backend = Memory.backend supply)
    (hregistered : Registered r.catalog r.names) (hsound : w.backend.store.Sound)
    {state : OrderState}
    (hreplay : w.backend.store.replay r.catalog (aggregateType ε) .initial
      (w.backend.store.members (streamName id)) = some state) :
    Outcome r supply (now 0) id command state w (handleCommand r policy now id command w) := by
  obtain ⟨houtcome, hpermanent⟩ := outcome_attempt hbackend hregistered hsound hreplay (now 0)
  rw [handleCommand_eq hpermanent]
  exact houtcome

namespace Outcome

variable {now : Timestamp} {state : OrderState} {result : Except Error Int × World Memory η ω}

/-- A version that is answered is that of the stream. -/
theorem eq_lastVersion (h : Outcome r supply now id command state w result)
    (hsound : w.backend.store.Sound) {version : Int} (hanswer : result.1 = .ok version) :
    version = result.2.backend.store.lastVersion (streamName id) := by
  cases h with
  | missing => cases hanswer
  | refused => cases hanswer
  | carriedOut metrics hhistory hdecided hprepared hpublished =>
      cases hanswer
      have hgrown : (w.backend.store.grown (supply w.backend.drawn).now (streamName id) _).Sound :=
        hsound.effect (.appended (streamName_ne_empty id) hprepared (.inl rfl))
      rw [hgrown.lastVersion_eq, Store.members_grown, if_pos rfl, List.length_append,
        Store.length_membersFrom, List.length_map, Staged.length_of_ofEnvelopes hprepared]
      rfl

/-- A command that fails leaves the log and the listeners as they were. -/
theorem unchanged (h : Outcome r supply now id command state w result) {e : Error}
    (hanswer : result.1 = .error e) :
    result.2.backend = w.backend ∧ result.2.listeners = w.listeners := by
  cases h with
  | missing => exact ⟨rfl, rfl⟩
  | refused => exact ⟨rfl, rfl⟩
  | carriedOut => cases hanswer

/-- A command that needs an order finds out that there is none. -/
theorem eq_missing (h : Outcome r supply now id command state w result)
    (hmembers : w.backend.store.members (streamName id) = []) (hcommand : command.creates = false) :
    result.1 = .error (.aggregateNotFound typeName id) := by
  cases h with
  | missing => rfl
  | refused metrics hhistory =>
      rw [hhistory hmembers] at hcommand
      cases hcommand
  | carriedOut metrics hhistory =>
      rw [hhistory hmembers] at hcommand
      cases hcommand

end Outcome

/-! ## Orders and their summaries -/

/-- The order replays to this state, and the view has the summary it ought to have. -/
structure InStep (catalog : EventCatalog ε) (s : Store) (view : OrderView) (id : String)
    (state : OrderState) : Prop where
  replays : s.replay catalog (aggregateType ε) .initial (s.members (streamName id)) = some state
  founded : state.Founded
  unbegun : state.status = none ↔ s.members (streamName id) = []
  shown : view.get? id = OrderSummary.ofState? id (s.members (streamName id)).length state

section Stored

variable {catalog : EventCatalog ε} {s : Store} {view after : OrderView} {draw : Draw}
  {state : OrderState} {e : OrderEvent} {staged : List (Staged ε)}

/-- An event that has been stored and shown leaves its order in step. -/
theorem InStep.stored (h : InStep catalog s view id state) (hknows : Knows catalog)
    (hsound : s.Sound) (hcreates : e.creates = state.status.isNone) (hreadable : e.Readable)
    (hprepared : Staged.ofEnvelopes draw 0 [(change id e).withHeader aggregateIdHeader id] =
      .ok staged) (haccepts : s.Accepts staged)
    (hafter : after.get? id = OrderSummary.next? id ((s.members (streamName id)).length + 1)
      (some e) (view.get? id)) :
    InStep catalog (s.grown draw.now (streamName id) staged) after id (state.apply e) := by
  obtain ⟨status, customerId, hstatus, hcustomer⟩ := h.founded.exists_apply hcreates
  have hmembers := s.members_grown draw.now (streamName id) (streamName id) staged
  rw [if_pos rfl] at hmembers
  have hlength : (Store.membersFrom s.lastPosition (s.lastVersion (streamName id))
      (staged.map Staged.eventId)).length = 1 := by
    rw [Store.length_membersFrom, List.length_map, Staged.length_of_ofEnvelopes hprepared]
    rfl
  refine ⟨?_, .created hstatus hcustomer, ?_, ?_⟩
  -- What was there replays as before, and the new event to its effect.
  · have hbodies : ∀ member ∈ s.members (streamName id),
        (s.grown draw.now (streamName id) staged).events.get? member.eventId =
          s.events.get? member.eventId :=
      fun member hmember => haccepts.get?_keep (hsound.stored _ member hmember) draw.now
    have hkept : ∀ entry ∈ staged,
        (s.grown draw.now (streamName id) staged).events.get? entry.eventId =
          some (entry.body draw.now) :=
      fun entry hentry => Store.get?_keep_of_mem haccepts.distinct hentry
    rw [hmembers, Store.replay_append, Store.replay_congr hbodies, h.replays, Option.bind_some]
    have hreadable : ∀ stored ∈ [e], stored.Readable := by simpa using hreadable
    exact replay_stored hknows hprepared hreadable hkept _ _ _
  · rw [hstatus, hmembers]
    refine iff_of_false nofun fun hnil => ?_
    rw [(List.append_eq_nil_iff.mp hnil).2] at hlength
    cases hlength
  · rw [hafter, h.shown, OrderSummary.next?_ofState? h.founded hcreates, hmembers,
      List.length_append, hlength]
    rfl

/-- Nothing changes for other orders. -/
theorem InStep.elsewhere {other : String} (h : InStep catalog s view other state)
    (hsound : s.Sound) (hne : id ≠ other) (haccepts : s.Accepts staged)
    (hafter : after.get? other = view.get? other) :
    InStep catalog (s.grown draw.now (streamName id) staged) after other state := by
  have hmembers := s.members_grown draw.now (streamName id) (streamName other) staged
  rw [if_neg (fun heq => hne (streamName_inj.mp heq))] at hmembers
  have hbodies : ∀ member ∈ s.members (streamName other),
      (s.grown draw.now (streamName id) staged).events.get? member.eventId =
        s.events.get? member.eventId :=
    fun member hmember => haccepts.get?_keep (hsound.stored _ member hmember) draw.now
  refine ⟨?_, h.founded, ?_, ?_⟩
  · rw [hmembers, Store.replay_congr hbodies]
    exact h.replays
  · rw [hmembers]
    exact h.unbegun
  · rw [hmembers, hafter]
    exact h.shown

end Stored

/-- What the view shows once the event of a command has been published. -/
theorem get?_published {handler : η} {view : ω → OrderView}
    (hkept : OrderView.KeptBy handler view r.react)
    (hsubscribed : ∀ name ∈ OrderEvent.names, handler ∈ w.bus.handlersOf name) (s : Store)
    (stream : String) {draw : Draw} {e : OrderEvent} {staged : List (Staged ε)}
    (hprepared : Staged.ofEnvelopes draw 0 [(change id e).withHeader aggregateIdHeader id] =
      .ok staged) (other : String) :
    (view (Bus.publishAll r.react (s.placed stream staged) (w.bus, w.listeners)).2).get? other =
      if id = other then
        OrderSummary.next? other (s.lastVersion stream + 1) (some e) ((view w.listeners).get? other)
      else (view w.listeners).get? other := by
  obtain ⟨entry, _, hentry, hentries, rfl⟩ := Staged.ofEnvelopes_cons_eq_ok_iff.mp hprepared
  cases hentries
  obtain ⟨-, -, henvelope⟩ := Staged.ofEnvelope_eq_ok_iff.mp hentry
  let published := entry.envelope.persistedAs entry.eventId (s.lastVersion stream + 1)
    (s.lastPosition + 1)
  have hid : published.aggregateId = id := congrArg Envelope.aggregateId henvelope
  have hevent : published.event = .typed (Includes.inject e) := congrArg Envelope.event henvelope
  have hname : published.eventName = e.name := by
    rw [Envelope.eventName, hevent]
    exact Includes.name_inject e
  have hmem : published.eventName ∈ OrderEvent.names := by
    obtain ⟨blank, hblank, hsame⟩ := e.exists_blank
    rw [hname, ← hsame]
    exact List.mem_map_of_mem hblank
  show (view (Bus.publish r.react published (w.bus, w.listeners)).2).get? other = _
  rw [hkept.get?_publish (hsubscribed _ hmem), OrderView.get?_handle, hid, hevent,
    Event.data?_typed_inject]
  rfl

/-- Every order is in step with the view, which is called for every order event. -/
structure Agrees (r : Repository ε Memory η ω) (handler : η) (view : ω → OrderView)
    (w : World Memory η ω) : Prop where
  sound : w.backend.store.Sound
  subscribed : ∀ name ∈ OrderEvent.names, handler ∈ w.bus.handlersOf name
  inStep : ∀ id, ∃ state, InStep r.catalog w.backend.store (view w.listeners) id state

/-- A timely command with a fresh draw leaves every order in step. -/
theorem Agrees.outcome {handler : η} {view : ω → OrderView} (h : Agrees r handler view w)
    (hkept : OrderView.KeptBy handler view r.react) (hknows : Knows r.catalog)
    {state : OrderState} (hstate : InStep r.catalog w.backend.store (view w.listeners) id state)
    {now : Timestamp} {result : Except Error Int × World Memory η ω}
    (houtcome : Outcome r supply now id command state w result) (hnow : now.date.inRange = true)
    (fresh : (supply w.backend.drawn).FreshFor w.backend.store 1) :
    Agrees r handler view result.2 := by
  cases houtcome with
  | missing metrics hmembers hcommand => exact ⟨h.sound, h.subscribed, h.inStep⟩
  | refused metrics hhistory hdecided => exact ⟨h.sound, h.subscribed, h.inStep⟩
  | carriedOut metrics hhistory hdecided hprepared hpublished =>
      have haccepts := Store.accepts_of_freshFor fresh hprepared
      refine ⟨?_, ?_, fun other => ?_⟩
      · exact h.sound.effect (.appended (streamName_ne_empty id) hprepared (.inl rfl))
      · intro name hname
        rw [hpublished]
        exact Bus.mem_handlersOf_publishAll (h.subscribed name hname) _
      · have hshown := get?_published hkept h.subscribed w.backend.store (streamName id) hprepared
          other
        rw [← hpublished] at hshown
        by_cases hother : id = other
        · subst hother
          rw [if_pos rfl, h.sound.lastVersion_eq] at hshown
          exact ⟨_, hstate.stored hknows h.sound (OrderState.creates_of_decide hdecided)
            (OrderState.readable_of_decide hdecided hnow) hprepared haccepts hshown⟩
        · rw [if_neg hother] at hshown
          obtain ⟨unmoved, hunmoved⟩ := h.inStep other
          exact ⟨unmoved, hunmoved.elsewhere h.sound hother haccepts hshown⟩

/-! ## Runs -/

/-- A command to be handled, with the times that its attempts read from the clock. -/
structure HandlerCall where
  id : String
  command : OrderCommand
  now : Nat → Timestamp

/-- The clock keeps to times that a payload can carry. -/
def HandlerCall.Timely (call : HandlerCall) : Prop :=
  ∀ attempt, (call.now attempt).date.inRange = true

/-- Handle one command. -/
def HandlerCall.handle (r : Repository ε Memory η ω) (policy : RetryPolicy)
    (w : World Memory η ω) (call : HandlerCall) : Except Error Int × World Memory η ω :=
  handleCommand r policy call.now call.id call.command w

/-- Handle commands one after another. -/
def handleCommands (r : Repository ε Memory η ω) (policy : RetryPolicy)
    (calls : List HandlerCall) (w : World Memory η ω) : World Memory η ω :=
  calls.foldl (fun w call => (call.handle r policy w).2) w

/-- The identifier that a command may draw is fresh each time. -/
def FreshAlong (r : Repository ε Memory η ω) (policy : RetryPolicy) (supply : Nat → Draw) :
    List HandlerCall → World Memory η ω → Prop
  | [], _ => True
  | call :: rest, w =>
    (supply w.backend.drawn).FreshFor w.backend.store 1 ∧
      FreshAlong r policy supply rest (call.handle r policy w).2

/-- Timely commands with fresh draws leave every order in step. -/
theorem Agrees.run {handler : η} {view : ω → OrderView}
    (hbackend : r.backend = Memory.backend supply) (hregistered : Registered r.catalog r.names)
    (hkept : OrderView.KeptBy handler view r.react) (h : Agrees r handler view w)
    {calls : List HandlerCall} (htimely : ∀ call ∈ calls, call.Timely)
    (fresh : FreshAlong r policy supply calls w) :
    Agrees r handler view (handleCommands r policy calls w) := by
  induction calls generalizing w with
  | nil => exact h
  | cons call rest ih =>
      obtain ⟨state, hstate⟩ := h.inStep call.id
      have houtcome : Outcome r supply (call.now 0) call.id call.command state w
          (call.handle r policy w) :=
        outcome_handleCommand hbackend hregistered h.sound hstate.replays
      exact ih (h.outcome hkept hregistered.knows hstate houtcome
          (htimely call List.mem_cons_self 0) fresh.1)
        (fun other hother => htimely other (List.mem_cons_of_mem _ hother)) fresh.2

/-! ## What is shown and what is loaded -/

section Shown

variable {handler : η} {view : ω → OrderView} (hbackend : r.backend = Memory.backend supply)
  (hregistered : Registered r.catalog r.names) (h : Agrees r handler view w)
include hbackend hregistered h

omit [DecidableEq η] in
/-- What is loaded of an order is the state in which it is in step. -/
theorem Agrees.load_eq_ok_iff {order : Order ε} :
    (r.load (aggregateType ε) id w).1 = .ok order ↔
      w.backend.store.members (streamName id) ≠ [] ∧
        ∃ state, InStep r.catalog w.backend.store (view w.listeners) id state ∧
          order = .restingOn id (w.backend.store.members (streamName id)) state := by
  obtain ⟨state, hstate⟩ := h.inStep id
  refine (Repository.load_eq_ok_iff hbackend (hregistered.streamOf_eq id) (streamName_ne_empty id)
    h.sound).trans (and_congr_right fun _ => ?_)
  constructor
  · rintro ⟨other, hreplay, rfl⟩
    cases Option.some.inj (hreplay.symm.trans hstate.replays)
    exact ⟨_, hstate, rfl⟩
  · rintro ⟨other, hother, rfl⟩
    exact ⟨other, hother.replays, rfl⟩

omit [DecidableEq η] in
theorem Agrees.isSome_iff : ((view w.listeners).get? id).isSome ↔
    ∃ order, (r.load (aggregateType ε) id w).1 = .ok order := by
  obtain ⟨state, hstate⟩ := h.inStep id
  rw [hstate.shown, hstate.founded.isSome_ofState?, Ne, hstate.unbegun]
  constructor
  · intro hmembers
    exact ⟨_, (h.load_eq_ok_iff hbackend hregistered).mpr ⟨hmembers, state, hstate, rfl⟩⟩
  · rintro ⟨order, hload⟩
    exact ((h.load_eq_ok_iff hbackend hregistered).mp hload).1

omit [DecidableEq η] in
theorem Agrees.shows {order : Order ε} (hload : (r.load (aggregateType ε) id w).1 = .ok order)
    {summary : OrderSummary} (hsummary : (view w.listeners).get? id = some summary) :
    summary.Shows order := by
  obtain ⟨-, state, hstate, rfl⟩ := (h.load_eq_ok_iff hbackend hregistered).mp hload
  rw [hstate.shown] at hsummary
  exact OrderSummary.shows_of_ofState? hsummary

end Shown

/-- Commands are handled one after another on any orders, and the view is subscribed before the
first of them, when no order has a stream and the view is empty; what else has been done to the
log, who else is subscribed and how often is tried again does not matter.

Afterwards the view has exactly the orders that can be loaded, and shows each as it is. Of
any further command: the version it answers is that of the order's stream, a failure has
changed neither the log nor the view, and a command that needs an order reports a missing one
as missing. -/
theorem read_model_agrees (hbackend : r.backend = Memory.backend supply)
    (hregistered : Registered r.catalog r.names) {handler : η} {view : ω → OrderView}
    (hkept : OrderView.KeptBy handler view r.react) (policy : RetryPolicy) (bus : Bus η)
    (w : World Memory η ω) (earlier : List (LogCall ε)) (calls : List HandlerCall)
    (hempty : ∀ id, (converse (Memory.access supply) earlier .empty).2.store.members
      (streamName id) = [])
    (hblank : ∀ id, (view w.listeners).get? id = none) (htimely : ∀ call ∈ calls, call.Timely) :
    let start : World Memory η ω := { w with
      backend := (converse (Memory.access supply) earlier .empty).2
      bus := bus.subscribe handler OrderEvent.names }
    FreshAlong r policy supply calls start →
      let after := handleCommands r policy calls start
      (∀ id, ((view after.listeners).get? id).isSome ↔
        ∃ order, (r.load (aggregateType ε) id after).1 = .ok order) ∧
      (∀ id order summary, (r.load (aggregateType ε) id after).1 = .ok order →
        (view after.listeners).get? id = some summary → summary.Shows order) ∧
      (∀ call : HandlerCall,
        let result := call.handle r policy after
        (∀ version, result.1 = .ok version →
          version = result.2.backend.store.lastVersion (streamName call.id)) ∧
        (∀ e, result.1 = .error e → result.2.backend.store = after.backend.store ∧
          view result.2.listeners = view after.listeners) ∧
        (call.command.creates = false →
          after.backend.store.members (streamName call.id) = [] →
            result.1 = .error (.aggregateNotFound typeName call.id))) := by
  intro start hfresh after
  have hstart : Agrees r handler view start := by
    refine ⟨Memory.sound_converse supply Memory.sound_empty earlier,
      fun name hname => Bus.mem_handlersOf_of_mem hname bus handler, fun id => ?_⟩
    refine ⟨.initial, ?_, .initial, iff_of_true rfl (hempty id), hblank id⟩
    rw [show start.backend.store.members (streamName id) = [] from hempty id]
    rfl
  have h : Agrees r handler view after := hstart.run hbackend hregistered hkept htimely hfresh
  refine ⟨fun id => h.isSome_iff hbackend hregistered,
    fun id order summary hload hsummary => h.shows hbackend hregistered hload hsummary,
    fun call => ?_⟩
  intro result
  obtain ⟨state, hstate⟩ := h.inStep call.id
  have houtcome : Outcome r supply (call.now 0) call.id call.command state after result :=
    outcome_handleCommand hbackend hregistered h.sound hstate.replays
  refine ⟨fun version => houtcome.eq_lastVersion h.sound, fun e hanswer => ?_,
    fun hcommand hmembers => houtcome.eq_missing hmembers hcommand⟩
  obtain ⟨hlog, hlisteners⟩ := houtcome.unchanged hanswer
  exact ⟨congrArg Memory.store hlog, congrArg view hlisteners⟩

/-- One order is missing when it is to be confirmed, and another one is created. -/
theorem read_model_agrees_two_orders :
    let react : Reaction OrderEvent Nat OrderView := fun handler envelope view =>
      (if handler = 0 then view.handle envelope else view, [])
    let r : Repository OrderEvent Memory Nat OrderView :=
      ⟨Memory.backend countingSupply, ⟨.ofList [(typeName, typeHashId)]⟩, catalog OrderEvent,
        react, none⟩
    let calls : List HandlerCall :=
      [⟨"8", .confirm, fun _ => .epoch⟩,
        ⟨"7", .create .nil [⟨.nil, 2⟩, ⟨.nil, 3⟩], fun _ => .epoch⟩]
    let start : World Memory Nat OrderView :=
      ⟨.empty, Bus.empty.subscribe 0 OrderEvent.names, .empty, none, 0⟩
    let after := handleCommands r .standard calls start
    let next : HandlerCall := ⟨"8", .deliver none, fun _ => .epoch⟩
    (∃ order summary, (r.load (aggregateType OrderEvent) "7" after).1 = .ok order ∧
      after.listeners.get? "7" = some summary ∧ summary.Shows order ∧ summary.itemCount = 2) ∧
    (next.handle r .standard after).1 = .error (.aggregateNotFound typeName "8") := by
  intro react r calls start after next
  have hregistered : Registered r.catalog r.names := ⟨⟨.empty, rfl⟩, ⟨.empty, rfl⟩⟩
  have hkept : OrderView.KeptBy 0 id r.react :=
    ⟨fun _ _ => rfl, fun _ _ _ hne => if_neg hne⟩
  have hepoch : Timestamp.epoch.date.inRange = true := by decide
  have htimely : ∀ call ∈ calls, call.Timely := by
    simp [calls, HandlerCall.Timely, hepoch]
  have hfresh : FreshAlong r .standard countingSupply calls start := by
    refine ⟨⟨?_, ?_⟩, ⟨?_, ?_⟩, trivial⟩ <;> decide +kernel
  obtain ⟨hsome, hshows, hnext⟩ := read_model_agrees rfl hregistered hkept .standard .empty
    ⟨.empty, .empty, .empty, none, 0⟩ [] calls (fun _ => rfl) (fun _ => rfl) htimely hfresh
  have hcount : (after.listeners.get? "7").map OrderSummary.itemCount = some 2 := by
    decide +kernel
  have hmembers : after.backend.store.members (streamName "8") = [] := by decide +kernel
  obtain ⟨summary, hsummary, hitems⟩ := Option.map_eq_some_iff.mp hcount
  obtain ⟨order, hload⟩ := (hsome "7").mp (Option.isSome_of_eq_some hsummary)
  exact ⟨⟨order, summary, hload, hsummary, hshows "7" order summary hload hsummary, hitems⟩,
    (hnext next).2.2 rfl hmembers⟩

end Order

end EventLog
