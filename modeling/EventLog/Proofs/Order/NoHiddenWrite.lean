/-
# No write is hidden from a checked save

However the steps of the clients interleave, the version an order rests on is the number of
memberships it has seen, and what it has seen stands in its stream in the same order
(`Session.Fits`). A checked save compares that number with the length of the stream. If they
agree the order has seen all of the stream; if not, it has missed a write, and neither its
own saves nor anybody's make up for that (`Clients.Behind`): it has to be loaded anew before
a checked save succeeds again.

That an order's state is the replay of what it has seen (`Session.Replays`) takes more: what
has been stored must be read as it was written, so identifiers have to be drawn afresh, the
catalog has to know the order events and the clocks have to keep to times that payloads can
carry. `Order.no_hidden_write` assumes that for this part only.
-/

import EventLog.Proofs.Order.Clients
import EventLog.Proofs.Store.AllOrNothing

namespace EventLog

variable {ε η ω : Type} [EventType ε] [Includes OrderEvent ε] [DecidableEq η]

namespace Order

/-- Handling commands goes on with one more command. -/
theorem handleAll_concat {commands : List (Timestamp × OrderCommand)} {base order after : Order ε}
    {now : Timestamp} {command : OrderCommand} (h : handleAll commands base = .ok order)
    (hnext : handle now command order = .ok after) :
    handleAll (commands ++ [(now, command)]) base = .ok after := by
  rw [handleAll, List.foldlM_append]
  exact Except.bind_eq_ok_iff.mpr ⟨order, h, Except.bind_eq_ok_iff.mpr ⟨after, hnext, rfl⟩⟩

end Order

/-! ## One session -/

namespace Session

/-- The order has come about by commands alone from an order that rests on what the session
has seen, and that stands in the stream in the same order. -/
structure Fits (id : String) (members : List Membership) (session : Session ε) : Prop where
  handled : ∃ state commands,
    Order.handleAll commands (.restingOn id session.history state) = .ok session.order
  seen : session.history.Sublist members

namespace Fits

variable {id : String} {members later : List Membership} {session : Session ε}

/-- The pending changes are order events, and identity and versions follow from them. -/
theorem exists_events (h : session.Fits id members) :
    ∃ (state : OrderState) (events : List OrderEvent), session.order =
      ⟨id, session.history.length, session.history.length + events.length,
        events.map (Order.change id), events.foldl OrderState.apply state⟩ := by
  obtain ⟨state, commands, hcommands⟩ := h.handled
  obtain ⟨events, hevents, -⟩ := Order.exists_events_of_handleAll hcommands
  exact ⟨state, events, by simpa [Aggregate.restingOn] using hevents⟩

theorem id_eq (h : session.Fits id members) : session.order.id = id := by
  obtain ⟨state, events, hevents⟩ := h.exists_events
  rw [hevents]

theorem originalVersion_eq (h : session.Fits id members) :
    session.order.originalVersion = session.history.length := by
  obtain ⟨state, events, hevents⟩ := h.exists_events
  rw [hevents]

theorem currentVersion_eq (h : session.Fits id members) :
    session.order.currentVersion = session.history.length + session.order.changes.length := by
  obtain ⟨state, events, hevents⟩ := h.exists_events
  rw [hevents]
  simp

/-- The expectation of a checked save is the number of memberships the order has seen. -/
theorem versionMatches_iff (h : session.Fits id members) {actual : Nat} :
    versionMatches (session.expected true) actual ↔ session.history.length = actual := by
  have hexpected : session.expected true = some (session.history.length : Int) :=
    congrArg some h.originalVersion_eq
  rw [hexpected, versionMatches, Option.some_inj, Int.ofNat_inj]
  exact or_iff_right (Option.some_ne_none _)

theorem streamOf_eq {names : StreamNames} {stream : String} (h : session.Fits id members)
    (hstream : names.streamOf Order.typeName id = .ok stream) :
    names.streamOf (Order.aggregateType ε).name session.order.id = .ok stream :=
  Order.streamOf_of_id_eq h.id_eq hstream

/-- Every pending change can be encoded. -/
theorem encodable (h : session.Fits id members) :
    ∀ envelope ∈ Repository.outgoing session.order,
      ∃ payload, envelope.event.marshal = .ok payload := by
  obtain ⟨state, events, hevents⟩ := h.exists_events
  exact Order.encodable_outgoing (congrArg Aggregate.changes hevents)

/-- A stream that grows keeps what the session has seen. -/
theorem of_grown (h : session.Fits id members) (hgrown : members <+: later) :
    session.Fits id later :=
  ⟨h.handled, h.seen.trans hgrown.sublist⟩

theorem begun (id : String) (members : List Membership) :
    (⟨.new (Order.aggregateType ε) id, [], []⟩ : Session ε).Fits id members :=
  ⟨⟨.initial, [], rfl⟩, List.nil_sublist _⟩

theorem loaded (id : String) (members : List Membership) (state : OrderState) :
    (⟨.restingOn id members state, members, []⟩ : Session ε).Fits id members := by
  refine ⟨⟨state, [], ?_⟩, ?_⟩
  · rw [history, List.append_nil]
    rfl
  · rw [history, List.append_nil]

theorem handle (h : session.Fits id members) {now : Timestamp} {command : OrderCommand}
    {order : Order ε} (hnext : Order.handle now command session.order = .ok order) :
    Session.Fits id members { session with order } := by
  obtain ⟨state, commands, hcommands⟩ := h.handled
  exact ⟨⟨state, _, Order.handleAll_concat hcommands hnext⟩, h.seen⟩

/-- What is left of an order whose pending changes have been saved. -/
theorem markSaved_eq (h : session.Fits id members) {added : List Membership}
    (hlength : added.length = session.order.changes.length) :
    session.order.markSaved session.order.currentVersion =
      .restingOn id (session.history ++ added) session.order.state := by
  rw [Aggregate.markSaved, Aggregate.restingOn, h.id_eq, h.currentVersion_eq, List.length_append,
    hlength]
  push_cast
  rfl

/-- A save adds as many memberships to what the session has seen as to the stream, whether
or not it had seen all of the stream before. -/
theorem save (h : session.Fits id members) {added : List Membership}
    (hlength : added.length = session.order.changes.length) :
    Session.Fits id (members ++ added)
      { session with
        order := session.order.markSaved session.order.currentVersion
        saved := session.saved ++ added } := by
  refine ⟨⟨session.order.state, [], ?_⟩, ?_⟩
  · rw [h.markSaved_eq hlength, history, ← List.append_assoc]
    rfl
  · rw [history, ← List.append_assoc]
    exact h.seen.append (List.Sublist.refl _)

end Fits

/-- The order has come about by timely commands from the replay of what the session has seen. -/
def Replays (catalog : EventCatalog ε) (id : String) (s : Store) (session : Session ε) : Prop :=
  ∃ state commands,
    s.replay catalog (Order.aggregateType ε) .initial session.history = some state ∧
      (∀ command ∈ commands, command.1.date.inRange = true) ∧
      Order.handleAll commands (.restingOn id session.history state) = .ok session.order

namespace Replays

variable {catalog : EventCatalog ε} {id : String} {s after : Store} {session : Session ε}

/-- A replay does not change while the bodies behind it do not. -/
theorem of_same_bodies (h : session.Replays catalog id s)
    (hbodies : ∀ member ∈ session.history,
      after.events.get? member.eventId = s.events.get? member.eventId) :
    session.Replays catalog id after := by
  obtain ⟨state, commands, hreplay, hclock, hcommands⟩ := h
  refine ⟨state, commands, ?_, hclock, hcommands⟩
  rw [Store.replay_congr hbodies, hreplay]

theorem begun (catalog : EventCatalog ε) (id : String) (s : Store) :
    (⟨.new (Order.aggregateType ε) id, [], []⟩ : Session ε).Replays catalog id s :=
  ⟨.initial, [], rfl, List.forall_mem_nil _, rfl⟩

theorem loaded {members : List Membership} {state : OrderState}
    (h : s.replay catalog (Order.aggregateType ε) .initial members = some state) (id : String) :
    (⟨.restingOn id members state, members, []⟩ : Session ε).Replays catalog id s := by
  refine ⟨state, [], ?_, List.forall_mem_nil _, ?_⟩
  · rw [history, List.append_nil, h]
  · rw [history, List.append_nil]
    rfl

theorem handle (h : session.Replays catalog id s) {now : Timestamp} {command : OrderCommand}
    {order : Order ε} (hnow : now.date.inRange = true)
    (hnext : Order.handle now command session.order = .ok order) :
    Session.Replays catalog id s { session with order } := by
  obtain ⟨state, commands, hreplay, hclock, hcommands⟩ := h
  refine ⟨state, _, hreplay, ?_, Order.handleAll_concat hcommands hnext⟩
  intro other hother
  rcases List.mem_append.mp hother with hother | hother
  · exact hclock other hother
  · rw [List.mem_singleton.mp hother]
    exact hnow

/-- What is saved is decoded to the very events whose effects the order has. -/
theorem save (h : session.Replays catalog id s) {members : List Membership}
    (hfits : session.Fits id members) (hknows : Order.Knows catalog) {draw : Draw}
    {stream : String} {staged : List (Staged ε)}
    (hprepared : Staged.ofEnvelopes draw 0 (Repository.outgoing session.order) = .ok staged)
    (hstored : ∀ member ∈ session.history, s.hasEvent member.eventId = true)
    (fresh : draw.FreshFor s session.order.changes.length) :
    Session.Replays catalog id (s.grown draw.now stream staged)
      { session with
        order := session.order.markSaved session.order.currentVersion
        saved := session.saved ++ Store.membersFrom s.lastPosition (s.lastVersion stream)
          (staged.map Staged.eventId) } := by
  obtain ⟨state, commands, hreplay, hclock, hcommands⟩ := h
  obtain ⟨events, hevents, hreadable⟩ := Order.exists_events_of_handleAll hcommands
  have hchanges : session.order.changes = events.map (Order.change id) := by
    rw [hevents]
    rfl
  have hstate : session.order.state = events.foldl OrderState.apply state := by
    rw [hevents]
    rfl
  have hlength := Repository.length_saved hprepared s.lastPosition (s.lastVersion stream)
  -- Fresh identifiers disturb no body that the history so far is read from, and none of each
  -- other's.
  have haccepts : s.Accepts staged := by
    refine Store.accepts_of_freshFor ?_ hprepared
    rwa [Repository.outgoing, List.length_map]
  have hbodies : ∀ member ∈ session.history,
      (s.grown draw.now stream staged).events.get? member.eventId =
        s.events.get? member.eventId :=
    fun member hmember => haccepts.get?_keep (hstored member hmember) draw.now
  have hkept : ∀ entry ∈ staged, (s.grown draw.now stream staged).events.get? entry.eventId =
      some (entry.body draw.now) :=
    fun entry hentry => Store.get?_keep_of_mem haccepts.distinct hentry
  have hadded : (s.grown draw.now stream staged).replay catalog (Order.aggregateType ε) state
      (Store.membersFrom s.lastPosition (s.lastVersion stream) (staged.map Staged.eventId)) =
      some session.order.state := by
    rw [Repository.outgoing, hchanges, hfits.id_eq, List.map_map] at hprepared
    rw [hstate]
    exact Order.replay_stored hknows hprepared (hreadable hclock) hkept _ _ _
  refine ⟨session.order.state, [], ?_, List.forall_mem_nil _, ?_⟩
  · rw [history, ← List.append_assoc, Store.replay_append]
    show (Store.replay catalog _ _ _ session.history).bind _ = _
    rw [Store.replay_congr hbodies, hreplay, Option.bind_some, hadded]
  · rw [hfits.markSaved_eq hlength, history, ← List.append_assoc]
    rfl

end Replays

end Session

/-! ## All sessions -/

namespace Clients

variable {r : Repository ε Memory η ω} {supply : Nat → Draw} {id stream : String}
  {c : Clients ε η ω}

/-- The log is as calls leave it, and every session fits it. -/
structure Sane (id stream : String) (c : Clients ε η ω) : Prop where
  sound : c.store.Sound
  unnamed : c.store.members "" = []
  fits : ∀ client session, c.sessions client = some session →
    session.Fits id (c.store.members stream)

omit [DecidableEq η] in
/-- The stream of the order only grows. -/
theorem Effect.members_grows {s : ClientStep ε} {after : Store}
    {sessions : Nat → Option (Session ε)} (h : Effect r supply id stream c s after sessions)
    (hspares : s.Spares stream) : c.store.members stream <+: after.members stream := by
  rcases h.exists_call with rfl | ⟨call, heffect, -, hspared⟩
  · exact List.prefix_rfl
  · exact heffect.members_grows (hspared hspares)

namespace Sane

omit [DecidableEq η] in
/-- After a step every session fits the log again: those that were there because the stream
has only grown, the one that is new or has moved by what moved it. -/
theorem fits_of_effect (h : Sane id stream c) {s : ClientStep ε} {after : Store}
    {sessions : Nat → Option (Session ε)}
    (heffect : Effect r supply id stream c s after sessions) (hspares : s.Spares stream) :
    ∀ client session, sessions client = some session →
      session.Fits id (after.members stream) := by
  have hgrown := heffect.members_grows hspares
  have hothers : ∀ client session, c.sessions client = some session →
      session.Fits id (after.members stream) :=
    fun client session hsession => (h.fits client session hsession).of_grown hgrown
  cases heffect with
  | idle => exact hothers
  | begun => exact forall_update hothers (.begun id _)
  | loaded => exact forall_update hothers (.loaded id _ _)
  | handled held accepted => exact forall_update hothers ((hothers _ _ held).handle accepted)
  | saved held _ _ prepared =>
      refine forall_update hothers ?_
      rw [Store.members_grown, if_pos rfl]
      exact (h.fits _ _ held).save (Repository.length_saved prepared _ _)
  | called => exact hothers

section Steps

variable (hbackend : r.backend = Memory.backend supply)
  (hstream : r.names.streamOf Order.typeName id = .ok stream)
include hbackend hstream

theorem effect (h : Sane id stream c) (s : ClientStep ε) :
    Effect r supply id stream c s (c.step r supply id stream s).store
      (c.step r supply id stream s).sessions :=
  effect_step hbackend hstream h.sound
    (fun client session hsession => (h.fits client session hsession).id_eq) s

theorem step (h : Sane id stream c) {s : ClientStep ε} (hspares : s.Spares stream) :
    Sane id stream (c.step r supply id stream s) := by
  have heffect := h.effect hbackend hstream s
  obtain ⟨hsound, hunnamed⟩ : (c.step r supply id stream s).store.Sound ∧
      (c.step r supply id stream s).store.members "" = [] := by
    rcases heffect.exists_call with hstore | ⟨call, hcall, -⟩
    · rw [hstore]
      exact ⟨h.sound, h.unnamed⟩
    · exact ⟨h.sound.effect hcall, hcall.members_unnamed h.unnamed⟩
  exact ⟨hsound, hunnamed, h.fits_of_effect heffect hspares⟩

theorem run (h : Sane id stream c) {steps : List (ClientStep ε)}
    (hspares : ∀ s ∈ steps, s.Spares stream) :
    Sane id stream (c.run r supply id stream steps) := by
  induction steps generalizing c with
  | nil => exact h
  | cons s rest ih =>
      exact ih (h.step hbackend hstream (hspares s List.mem_cons_self))
        fun other hother => hspares other (List.mem_cons_of_mem _ hother)

end Steps

end Sane

/-! ### What the orders replay to -/

omit [DecidableEq η] in
/-- After a timely step with a fresh draw every order still comes from a replay. -/
theorem replays_of_effect (hknows : Order.Knows r.catalog) (h : Sane id stream c)
    (hreplays : ∀ client session, c.sessions client = some session →
      session.Replays r.catalog id c.store)
    {s : ClientStep ε} {after : Store} {sessions : Nat → Option (Session ε)}
    (heffect : Effect r supply id stream c s after sessions) (htimely : s.Timely)
    (fresh : (c.draw supply).FreshFor c.store (c.drawn s)) :
    ∀ client session, sessions client = some session → session.Replays r.catalog id after := by
  have hstored : ∀ client session, c.sessions client = some session →
      ∀ member ∈ session.history, c.store.hasEvent member.eventId = true :=
    fun client session hsession member hmember =>
      h.sound.stored stream member ((h.fits client session hsession).seen.subset hmember)
  have hbodies : ∀ event, c.store.hasEvent event = true →
      after.events.get? event = c.store.events.get? event := by
    intro event hevent
    rcases heffect.exists_call with rfl | ⟨call, hcall, hdrawn, -⟩
    · rfl
    · exact hcall.get?_events (by rwa [hdrawn]) hevent
  have hothers : ∀ client session, c.sessions client = some session →
      session.Replays r.catalog id after :=
    fun client session hsession => (hreplays client session hsession).of_same_bodies
      fun member hmember => hbodies _ (hstored client session hsession member hmember)
  cases heffect with
  | idle => exact hothers
  | begun => exact forall_update hothers (.begun _ id _)
  | loaded replayed => exact forall_update hothers (.loaded replayed id)
  | handled held accepted =>
      exact forall_update hothers ((hothers _ _ held).handle htimely accepted)
  | saved held _ _ prepared =>
      refine forall_update hothers ((hreplays _ _ held).save (h.fits _ _ held) hknows prepared
        (hstored _ _ held) ?_)
      simpa [drawn, held] using fresh
  | called => exact hothers

theorem replays_run (hbackend : r.backend = Memory.backend supply)
    (hstream : r.names.streamOf Order.typeName id = .ok stream)
    (hknows : Order.Knows r.catalog) (h : Sane id stream c)
    (hreplays : ∀ client session, c.sessions client = some session →
      session.Replays r.catalog id c.store)
    {steps : List (ClientStep ε)} (hspares : ∀ s ∈ steps, s.Spares stream)
    (htimely : ∀ s ∈ steps, s.Timely) (fresh : c.FreshAlong r supply id stream steps) :
    ∀ client session, (c.run r supply id stream steps).sessions client = some session →
      session.Replays r.catalog id (c.run r supply id stream steps).store := by
  induction steps generalizing c with
  | nil => exact hreplays
  | cons s rest ih =>
      have hmem : ∀ other ∈ rest, other ∈ s :: rest := fun _ => List.mem_cons_of_mem s
      exact ih (h.step hbackend hstream (hspares s List.mem_cons_self))
        (replays_of_effect hknows h hreplays (h.effect hbackend hstream s)
          (htimely s List.mem_cons_self) fresh.1)
        (fun other hother => hspares other (hmem other hother))
        (fun other hother => htimely other (hmem other hother)) fresh.2

/-! ### Having missed a write -/

/-- The client's order, which has been loaded from these memberships, has not seen all of
its stream. -/
def Behind (stream : String) (client : Nat) (loaded : List Membership) (c : Clients ε η ω) :
    Prop :=
  ∃ session, c.sessions client = some session ∧ session.loaded = loaded ∧
    session.history.length < (c.store.members stream).length

namespace Behind

variable {client : Nat} {loaded : List Membership}

omit [DecidableEq η] in
/-- A step that does not replace the order leaves it behind: what it has seen grows only by
what its own saves add to the stream. -/
theorem of_effect (h : Behind stream client loaded c) {s : ClientStep ε} {after : Store}
    {sessions : Nat → Option (Session ε)}
    (heffect : Effect r supply id stream c s after sessions) (hspares : s.Spares stream)
    (hkeeps : s.Keeps client) :
    ∃ session, sessions client = some session ∧ session.loaded = loaded ∧
      session.history.length < (after.members stream).length := by
  obtain ⟨session, hsession, hloaded, hlt⟩ := h
  have hgrown := (heffect.members_grows hspares).length_le
  have hother : ∀ {who : Nat} {changed : Option (Session ε)}, client ≠ who →
      Function.update c.sessions who changed client = some session :=
    fun hne => (Function.update_of_ne hne _ _).trans hsession
  cases heffect with
  | idle => exact ⟨session, hsession, hloaded, hlt⟩
  | @begun _ who anew =>
      have hne : client ≠ who := by
        rintro rfl
        exact anew.elim hkeeps.1 hkeeps.2
      exact ⟨session, hother hne, hloaded, hlt⟩
  | @loaded who =>
      have hne : client ≠ who := by
        rintro rfl
        exact hkeeps.2 rfl
      exact ⟨session, hother hne, hloaded, hlt⟩
  | @handled who _ _ _ _ held =>
      by_cases heq : client = who
      · subst heq
        rw [hsession] at held
        cases held
        exact ⟨_, Function.update_self _ _ _, hloaded, hlt⟩
      · exact ⟨session, hother heq, hloaded, hlt⟩
  | @saved who _ _ staged held =>
      by_cases heq : client = who
      · subst heq
        rw [hsession] at held
        cases held
        refine ⟨_, Function.update_self _ _ _, hloaded, ?_⟩
        rw [Store.members_grown, if_pos rfl, List.length_append, Session.history,
          ← List.append_assoc, List.length_append]
        exact Nat.add_lt_add_right hlt _
      · exact ⟨session, hother heq, hloaded, Nat.lt_of_lt_of_le hlt hgrown⟩
  | called => exact ⟨session, hsession, hloaded, Nat.lt_of_lt_of_le hlt hgrown⟩

theorem run (hbackend : r.backend = Memory.backend supply)
    (hstream : r.names.streamOf Order.typeName id = .ok stream) (hsane : Sane id stream c)
    (h : Behind stream client loaded c) {steps : List (ClientStep ε)}
    (hsteps : ∀ s ∈ steps, s.Spares stream ∧ s.Keeps client) :
    Behind stream client loaded (c.run r supply id stream steps) := by
  induction steps generalizing c with
  | nil => exact h
  | cons s rest ih =>
      obtain ⟨hspares, hkeeps⟩ := hsteps s List.mem_cons_self
      exact ih (hsane.step hbackend hstream hspares)
        (h.of_effect (hsane.effect hbackend hstream s) hspares hkeeps)
        fun other hother => hsteps other (List.mem_cons_of_mem s hother)

end Behind

/-! ### What a checked save is answered -/

section Answers

variable (hbackend : r.backend = Memory.backend supply)
  (hstream : r.names.streamOf Order.typeName id = .ok stream) (h : Sane id stream c)
  {session : Session ε} (hfits : session.Fits id (c.store.members stream))
  (hchanges : session.order.changes ≠ [])
include hbackend hstream h hfits hchanges

/-- A checked save that succeeds comes from an order that has seen all of its stream. -/
theorem history_eq_of_saveAnswer (hanswer : c.saveAnswer r session true = .ok ()) :
    stream ≠ "" ∧ session.history = c.store.members stream := by
  have hstream' := hfits.streamOf_eq hstream
  cases happend : c.store.append (c.draw supply) stream (Repository.outgoing session.order)
      (session.expected true) with
  | error e =>
      obtain ⟨world, hsave, -⟩ := Repository.save_of_refused hbackend hstream' hchanges happend
      rw [saveAnswer, hsave] at hanswer
      cases hanswer
  | ok result =>
      obtain ⟨hnamed, hversion, -⟩ := Store.append_eq_ok_iff.mp happend
      rw [h.sound.lastVersion_eq] at hversion
      exact ⟨hnamed, hfits.seen.eq_of_length (hfits.versionMatches_iff.mp hversion)⟩

/-- The checked save of an order that has not seen all of its stream is a conflict. -/
theorem saveAnswer_of_lt (hlt : session.history.length < (c.store.members stream).length) :
    c.saveAnswer r session true = .error (.conflict stream (some session.order.originalVersion)
      (c.store.members stream).length) := by
  have hstream' := hfits.streamOf_eq hstream
  have hnamed : stream ≠ "" := by
    rintro rfl
    rw [h.unnamed] at hlt
    exact Nat.not_lt_zero _ hlt
  have hversion : ¬ versionMatches (session.expected true) (c.store.lastVersion stream) := by
    rw [h.sound.lastVersion_eq, hfits.versionMatches_iff]
    exact Nat.ne_of_lt hlt
  obtain ⟨staged, hstaged⟩ := Staged.exists_ofEnvelopes (c.draw supply) 0 hfits.encodable
  have happend : c.store.append (c.draw supply) stream (Repository.outgoing session.order)
      (session.expected true) = .error (.conflict stream (session.expected true)
        (c.store.lastVersion stream)) := by
    rw [Store.append_eq, if_neg hnamed, hstaged]
    exact if_neg hversion
  obtain ⟨world, hsave, -⟩ := Repository.save_of_refused hbackend hstream' hchanges happend
  rw [saveAnswer, hsave, h.sound.lastVersion_eq]
  rfl

end Answers

omit [EventType ε] [Includes OrderEvent ε] [DecidableEq η] in
theorem not_held_opened {world : World Memory η ω} {client : Nat} {session : Session ε} :
    (opened world).sessions client ≠ some session := nofun

omit [DecidableEq η] in
/-- Where nobody has an order yet, all is well with whatever log there is. -/
theorem sane_opened (supply : Nat → Draw) (id stream : String) (w : World Memory η ω)
    (earlier : List (LogCall ε)) :
    Sane id stream (opened { w with backend :=
      (converse (Memory.access supply) earlier .empty).2 } : Clients ε η ω) where
  sound := Memory.sound_converse supply Memory.sound_empty earlier
  unnamed := converse_keeps (P := fun memory : Memory => memory.store.members "" = [])
    (fun call memory h => (Memory.effect_ask supply memory call).members_unnamed h) earlier rfl
  fits _ _ h := (not_held_opened h).elim

end Clients

namespace Order

variable {r : Repository ε Memory η ω} {supply : Nat → Draw} {id stream : String}

/-- Clients begin, load, change and save an order in any interleaving, and others append and
link to its stream, which is not deleted; `earlier` is what had been done to the log before.

If a checked save of pending changes succeeds, the stream held exactly what the order was
loaded from and what its own saves had added. The order is then what handling commands makes
of an order loaded at that moment, so its changes were decided on what the stream adds up to.
And once the stream holds anything else, no checked save of the order's changes succeeds any
more, whatever is done, until it is begun or loaded anew: every one is a conflict. -/
theorem no_hidden_write (hbackend : r.backend = Memory.backend supply)
    (hstream : r.names.streamOf typeName id = .ok stream) (w : World Memory η ω)
    (earlier : List (LogCall ε)) (steps : List (ClientStep ε))
    (hspares : ∀ s ∈ steps, s.Spares stream) :
    let start : Clients ε η ω := .opened { w with backend :=
      (converse (Memory.access supply) earlier .empty).2 }
    let c := start.run r supply id stream steps
    ∀ client session, c.sessions client = some session →
      (session.order.changes ≠ [] → c.saveAnswer r session true = .ok () →
        c.store.members stream = session.loaded ++ session.saved ∧
        (Knows r.catalog → (∀ s ∈ steps, s.Timely) → start.FreshAlong r supply id stream steps →
          ∃ current commands, (r.loadOrNew (aggregateType ε) id c.world).1 = .ok current ∧
            current.originalVersion = session.order.originalVersion ∧
            handleAll commands current = .ok session.order)) ∧
      (c.store.members stream ≠ session.loaded ++ session.saved →
        ∀ later : List (ClientStep ε), (∀ s ∈ later, s.Spares stream ∧ s.Keeps client) →
          let c' := c.run r supply id stream later
          ∃ session', c'.sessions client = some session' ∧ session'.loaded = session.loaded ∧
            (session'.order.changes ≠ [] → c'.saveAnswer r session' true =
              .error (.conflict stream (some session'.order.originalVersion)
                (c'.store.members stream).length))) := by
  intro start c client session hsession
  have hstart : Clients.Sane id stream start := Clients.sane_opened supply id stream w earlier
  have hsane : Clients.Sane id stream c := hstart.run hbackend hstream hspares
  have hfits := hsane.fits client session hsession
  refine ⟨fun hchanges hanswer => ?_, fun hmissed later hlater => ?_⟩
  -- The order's state is a replay of its history, and here that is a replay of the stream.
  · obtain ⟨hnamed, hseen⟩ :=
      Clients.history_eq_of_saveAnswer hbackend hstream hsane hfits hchanges hanswer
    refine ⟨hseen.symm, fun hknows htimely hfresh => ?_⟩
    obtain ⟨state, commands, hreplay, -, hcommands⟩ := Clients.replays_run hbackend hstream hknows
      hstart (fun _ _ h => (Clients.not_held_opened h).elim) hspares htimely hfresh client session
      hsession
    rw [hseen] at hreplay hcommands
    refine ⟨_, commands, Repository.loadOrNew_of_replay hbackend hstream hnamed hsane.sound hreplay,
      ?_, hcommands⟩
    rw [hfits.originalVersion_eq, hseen]
    rfl
  -- A history that is part of the stream and not all of it is shorter, and stays so.
  · have hlt : session.history.length < (c.store.members stream).length := by
      refine Nat.lt_of_le_of_ne hfits.seen.length_le fun heq => ?_
      exact hmissed (hfits.seen.eq_of_length heq).symm
    obtain ⟨session', hsession', hloaded, hlt'⟩ := Clients.Behind.run hbackend hstream hsane
      ⟨session, hsession, rfl, hlt⟩ hlater
    have hsane' := hsane.run hbackend hstream fun s hs => (hlater s hs).1
    exact ⟨session', hsession', hloaded, fun hchanges => Clients.saveAnswer_of_lt hbackend hstream
      hsane' (hsane'.fits client session' hsession') hchanges hlt'⟩

/-- A client saves the order it began and may save it checked again, since nobody else has
written. Then somebody puts a note into its stream; the client saves over it unchecked, and
from then on its checked saves are conflicts. -/
theorem no_hidden_write_foreign_note :
    let r : Repository OrderEvent Memory Nat Unit :=
      ⟨Memory.backend countingSupply, ⟨.ofList [(typeName, typeHashId)]⟩, catalog OrderEvent,
        fun _ _ listeners => (listeners, []), none⟩
    let steps : List (ClientStep OrderEvent) :=
      [.begin 0, .handle 0 .epoch (.create .nil [⟨.nil, 1⟩]), .save 0 true,
        .handle 0 .epoch (.updateItems [⟨.nil, 2⟩] none)]
    let note : ClientStep OrderEvent :=
      .other (.append "order#7" [.fresh "7" (.raw "Noted" "")] none)
    let start : Clients OrderEvent Nat Unit := .opened ⟨.empty, .empty, (), none, 0⟩
    let c := start.run r countingSupply "7" "order#7" steps
    let later : List (ClientStep OrderEvent) :=
      [.save 0 false, .handle 0 .epoch (.updateItems [⟨.nil, 3⟩] none)]
    let c' := (start.run r countingSupply "7" "order#7" (steps ++ [note])).run r countingSupply
      "7" "order#7" later
    (∃ session current commands, c.sessions 0 = some session ∧
      c.saveAnswer r session true = .ok () ∧
      c.store.members "order#7" = session.loaded ++ session.saved ∧
      (r.loadOrNew (aggregateType OrderEvent) "7" c.world).1 = .ok current ∧
      handleAll commands current = .ok session.order) ∧
    ∃ session', c'.sessions 0 = some session' ∧ session'.order.changes ≠ [] ∧
      c'.saveAnswer r session' true = .error (.conflict "order#7" (some 2) 3) := by
  intro r steps note start c later c'
  have hstream : r.names.streamOf typeName "7" = .ok "order#7" := by decide +kernel
  have hspares : ∀ s ∈ steps, s.Spares "order#7" := by
    simp [steps, ClientStep.Spares]
  have hspares' : ∀ s ∈ steps ++ [note], s.Spares "order#7" := by
    simp [steps, note, ClientStep.Spares]
  have hepoch : Timestamp.epoch.date.inRange = true := by decide
  have htimely : ∀ s ∈ steps, s.Timely := by
    simp [steps, ClientStep.Timely, hepoch]
  have hfresh : start.FreshAlong r countingSupply "7" "order#7" steps := by
    refine ⟨⟨?_, ?_⟩, ⟨?_, ?_⟩, ⟨?_, ?_⟩, ⟨?_, ?_⟩, trivial⟩ <;> decide
  have hfirst := no_hidden_write rfl hstream ⟨.empty, .empty, (), none, 0⟩ [] steps hspares
  have hsecond := no_hidden_write rfl hstream ⟨.empty, .empty, (), none, 0⟩ [] (steps ++ [note])
    hspares'
  constructor
  · obtain ⟨hseen, hdecided⟩ := (hfirst 0 _ rfl).1 nofun rfl
    obtain ⟨current, commands, hload, -, hcommands⟩ := hdecided knows_catalog htimely hfresh
    exact ⟨_, current, commands, rfl, rfl, hseen, hload, hcommands⟩
  · obtain ⟨session', hsession', -, hconflict⟩ := (hsecond 0 _ rfl).2 (by decide)
      later (by simp [later, ClientStep.Spares, ClientStep.Keeps])
    obtain ⟨held, hheld, hpending, hversion⟩ : ∃ held, c'.sessions 0 = some held ∧
        held.order.changes ≠ [] ∧ held.order.originalVersion = 2 := ⟨_, rfl, nofun, rfl⟩
    have heq : held = session' := Option.some.inj (hheld.symm.trans hsession')
    rw [heq] at hpending hversion
    have hlength : ((c'.store.members "order#7").length : Int) = 3 := by decide
    have hanswer : c'.saveAnswer r session' true = .error (.conflict "order#7"
        (some session'.order.originalVersion) (c'.store.members "order#7").length) :=
      hconflict hpending
    rw [hversion, hlength] at hanswer
    exact ⟨session', hsession', hpending, hanswer⟩

end Order

end EventLog
