/-
# A saved order is loaded as it is in memory

One client begins an order, handles commands and saves with the version checked, in any
order; others may do what they like with other streams, and may load this order as well, but
nobody else writes to its stream (`ClientStep.LeftTo`). The client's order has then seen
all of its stream at every moment (`Clients.UpToDate`), so none of its saves is refused, and
its version is the number of commands it has accepted.

What a load makes of the stream after a save is the very order the client holds: its state
is rebuilt from what was stored, while the order in memory got there by the commands
themselves. `Session.Replays` has the reason why the two agree.
-/

import EventLog.Proofs.Order.NoHiddenWrite
import EventLog.Proofs.Order.Registration

namespace EventLog

variable {ε η ω : Type} [EventType ε] [Includes OrderEvent ε] [DecidableEq η]

/-! ## Who writes to the order's stream -/

/-- The step leaves the order to this client, who keeps it and saves it with the version
checked: nobody else writes to its stream. -/
def ClientStep.LeftTo (client : Nat) (stream : String) : ClientStep ε → Prop
  | .begin who => who ≠ client
  | .load who => who ≠ client
  | .handle _ _ _ => True
  | .save who checked => who = client ∧ checked = true
  | .other call => ¬ call.Writes stream

omit [EventType ε] [Includes OrderEvent ε] in
theorem ClientStep.LeftTo.spares {client : Nat} {stream : String} {s : ClientStep ε}
    (h : s.LeftTo client stream) : s.Spares stream := by
  rintro rfl
  exact h rfl

/-- An order without pending changes rests on what it has seen. -/
theorem Session.Fits.order_eq {id : String} {members : List Membership} {session : Session ε}
    (h : session.Fits id members) (hchanges : session.order.changes = []) :
    session.order = .restingOn id session.history session.order.state := by
  obtain ⟨state, events, hevents⟩ := h.exists_events
  rw [hevents] at hchanges
  cases List.map_eq_nil_iff.mp hchanges
  rw [hevents]
  simp [Aggregate.restingOn]

/-- Its state is the replay of that. -/
theorem Session.Replays.replay_eq {catalog : EventCatalog ε} {id : String} {s : Store}
    {session : Session ε} (h : session.Replays catalog id s)
    (hchanges : session.order.changes = []) :
    s.replay catalog (Order.aggregateType ε) .initial session.history =
      some session.order.state := by
  obtain ⟨state, commands, hreplay, -, hcommands⟩ := h
  obtain ⟨events, hevents, -⟩ := Order.exists_events_of_handleAll hcommands
  rw [hevents, Aggregate.restingOn, List.nil_append] at hchanges
  cases List.map_eq_nil_iff.mp hchanges
  rw [hevents]
  exact hreplay

namespace Clients

/-! ## Counting accepted commands -/

/-- In this step the client handles a command that is accepted. -/
def accepts (client : Nat) (c : Clients ε η ω) : ClientStep ε → Bool
  | .handle who now command =>
    who = client && match c.sessions client with
      | some session => (Order.handle now command session.order).isOk
      | none => false
  | _ => false

/-- How many of the client's commands are accepted along these steps. -/
def accepted (r : Repository ε Memory η ω) (supply : Nat → Draw) (id stream : String)
    (client : Nat) : List (ClientStep ε) → Clients ε η ω → Nat
  | [], _ => 0
  | s :: rest, c =>
    (c.accepts client s).toNat +
      accepted r supply id stream client rest (c.step r supply id stream s)

/-! ## Being up to date -/

/-- The client holds an order that has seen all of its stream and stands at this version. -/
structure UpToDate (stream : String) (client version : Nat) (s : Store)
    (sessions : Nat → Option (Session ε)) (session : Session ε) : Prop where
  held : sessions client = some session
  seen : session.history = s.members stream
  version_eq : session.order.currentVersion = version

variable {r : Repository ε Memory η ω} {supply : Nat → Draw} {id stream : String}
  {c : Clients ε η ω} {client version : Nat} {session : Session ε}

namespace UpToDate

omit [EventType ε] [Includes OrderEvent ε] in
/-- What others do with their own orders does not matter. -/
theorem of_update {s : Store} {sessions : Nat → Option (Session ε)}
    (h : UpToDate stream client version s sessions session) {who : Nat} (hne : who ≠ client)
    (changed : Option (Session ε)) :
    UpToDate stream client version s (Function.update sessions who changed) session :=
  ⟨(Function.update_of_ne hne.symm _ _).trans h.held, h.seen, h.version_eq⟩

/-- A command moves the version if it is the client's and is accepted. -/
theorem handle (h : UpToDate stream client version c.store c.sessions session) (who : Nat)
    (now : Timestamp) (command : OrderCommand) :
    ∃ session', UpToDate stream client
      (version + (c.accepts client (.handle who now command)).toNat)
      (c.step r supply id stream (.handle who now command)).store
      (c.step r supply id stream (.handle who now command)).sessions session' := by
  rw [step, accepts]
  by_cases hwho : who = client
  · subst hwho
    rw [h.held]
    dsimp only
    cases horder : Order.handle now command session.order with
    | error e => exact ⟨session, by simpa [Except.isOk, Except.toBool] using h⟩
    | ok order =>
        obtain ⟨event, -, hafter⟩ := Order.handle_eq_ok_iff.mp horder
        refine ⟨{ session with order }, Function.update_self _ _ _, h.seen, ?_⟩
        show order.currentVersion = _
        rw [hafter, h.version_eq]
        simp [Except.isOk, Except.toBool]
  · rw [decide_eq_false hwho]
    refine ⟨session, ?_⟩
    cases c.sessions who with
    | none => exact h
    | some other =>
        dsimp only
        cases Order.handle now command other.order with
        | error e => exact h
        | ok order => exact h.of_update hwho _

section Steps

variable (hbackend : r.backend = Memory.backend supply)
  (hstream : r.names.streamOf Order.typeName id = .ok stream)
include hbackend hstream

/-- Each step moves the version by the command accepted in it, and what is added to the
stream is added to what the order has seen. -/
theorem step (h : UpToDate stream client version c.store c.sessions session)
    (hsane : Sane id stream c) {s : ClientStep ε} (hs : s.LeftTo client stream) :
    ∃ session', UpToDate stream client (version + (c.accepts client s).toNat)
      (c.step r supply id stream s).store (c.step r supply id stream s).sessions session' := by
  have heffect := hsane.effect hbackend hstream s
  cases s with
  | begin who => exact ⟨session, h.of_update hs _⟩
  | handle who now command => exact h.handle who now command
  | load who =>
      generalize (c.step r supply id stream (.load who)).store = after at heffect ⊢
      generalize (c.step r supply id stream (.load who)).sessions = sessions at heffect ⊢
      cases heffect with
      | idle => exact ⟨session, h⟩
      | begun anew =>
          rcases anew with hload | hload
          · cases hload
          · cases hload
            exact ⟨session, h.of_update hs _⟩
      | loaded replayed => exact ⟨session, h.of_update hs _⟩
  | save who checked =>
      obtain ⟨rfl, rfl⟩ := hs
      generalize (c.step r supply id stream (.save who true)).store = after at heffect ⊢
      generalize (c.step r supply id stream (.save who true)).sessions = sessions at heffect ⊢
      cases heffect with
      | idle => exact ⟨session, h⟩
      | begun anew => rcases anew with h | h <;> cases h
      | saved held named expectation prepared =>
          rw [h.held] at held
          cases held
          refine ⟨_, Function.update_self _ _ _, ?_, h.version_eq⟩
          rw [Store.members_grown, if_pos rfl, Session.history, ← List.append_assoc, ← h.seen]
          rfl
  | other call =>
      generalize (c.step r supply id stream (.other call)).store = after at heffect ⊢
      generalize (c.step r supply id stream (.other call)).sessions = sessions at heffect ⊢
      cases heffect with
      | idle => exact ⟨session, h⟩
      | begun anew => rcases anew with h | h <;> cases h
      | called effect =>
          exact ⟨session, h.held, h.seen.trans (effect.members_eq hs).symm, h.version_eq⟩

theorem run (h : UpToDate stream client version c.store c.sessions session)
    (hsane : Sane id stream c) {steps : List (ClientStep ε)}
    (hsteps : ∀ s ∈ steps, s.LeftTo client stream) :
    ∃ session', UpToDate stream client (version + c.accepted r supply id stream client steps)
      (c.run r supply id stream steps).store (c.run r supply id stream steps).sessions
      session' := by
  induction steps generalizing c version session with
  | nil => exact ⟨session, h⟩
  | cons s rest ih =>
      have hs := hsteps s List.mem_cons_self
      obtain ⟨session', h'⟩ := h.step hbackend hstream hsane hs
      obtain ⟨last, hlast⟩ := ih h' (hsane.step hbackend hstream hs.spares)
        fun other hother => hsteps other (List.mem_cons_of_mem _ hother)
      rw [Nat.add_assoc] at hlast
      exact ⟨last, hlast⟩

omit hbackend hstream in
/-- After a save the client holds the order that the save returned. -/
theorem exists_saved (r : Repository ε Memory η ω) (supply : Nat → Draw) (id stream : String)
    (held : c.sessions client = some session) (checked : Bool) :
    ∃ session', (c.step r supply id stream (.save client checked)).sessions client =
        some session' ∧
      session'.order = (r.save (Order.aggregateType ε) session.order (session.expected checked)
        c.world).2.1 := by
  rw [Clients.step, held]
  dsimp only
  rcases r.save (Order.aggregateType ε) session.order (session.expected checked) c.world with
    ⟨answer, order, world⟩
  cases answer with
  | error e => exact ⟨_, Function.update_self _ _ _, rfl⟩
  | ok done => exact ⟨_, Function.update_self _ _ _, rfl⟩

/-- A checked save of an order that has seen all of its stream succeeds, and leaves the order
as it is but for its pending changes. -/
theorem save (h : UpToDate stream client version c.store c.sessions session)
    (hsane : Sane id stream c) (named : stream ≠ "") :
    c.saveAnswer r session true = .ok () ∧
      ∃ session', (c.step r supply id stream (.save client true)).sessions client = some session' ∧
        session'.order = session.order.markSaved version := by
  have hfits := hsane.fits client session h.held
  have hstream' := hfits.streamOf_eq hstream
  obtain ⟨session', hsession', horder⟩ :=
    exists_saved r supply id stream h.held true
  suffices hsave : ∃ world, r.save (Order.aggregateType ε) session.order (session.expected true)
      c.world = (.ok (), session.order.markSaved version, world) by
    obtain ⟨world, hsave⟩ := hsave
    rw [hsave] at horder
    rw [saveAnswer, hsave]
    exact ⟨rfl, session', hsession', horder⟩
  rw [← h.version_eq]
  by_cases hchanges : session.order.changes = []
  · have hsaved := hfits.markSaved_eq (show ([] : List Membership).length = _ by rw [hchanges]; rfl)
    rw [List.append_nil, ← hfits.order_eq hchanges] at hsaved
    rw [hsaved]
    exact ⟨_, Repository.save_of_no_changes hstream' hchanges _⟩
  · have hversion : versionMatches (session.expected true) (c.store.lastVersion stream) := by
      rw [hsane.sound.lastVersion_eq, hfits.versionMatches_iff, h.seen]
    obtain ⟨staged, hstaged⟩ := Staged.exists_ofEnvelopes (c.draw supply) 0 hfits.encodable
    obtain ⟨world, hsave, -⟩ := Repository.save_of_stored hbackend hstream' hchanges
      (Store.append_eq_ok_iff.mpr ⟨named, hversion, staged, hstaged, rfl, rfl⟩)
    exact ⟨world, hsave⟩

end Steps

end UpToDate

omit [DecidableEq η] in
/-- An order that has seen all of its stream and has nothing pending is what is loaded, if
there is anything to load. -/
theorem load_eq_order (hbackend : r.backend = Memory.backend supply)
    (hstream : r.names.streamOf Order.typeName id = .ok stream) (named : stream ≠ "")
    (hsane : Sane id stream c) (held : c.sessions client = some session)
    (seen : session.history = c.store.members stream) (hchanges : session.order.changes = [])
    (hreplays : session.Replays r.catalog id c.store) (hmembers : c.store.members stream ≠ []) :
    (r.load (Order.aggregateType ε) id c.world).1 = .ok session.order := by
  have horder := (hsane.fits client session held).order_eq hchanges
  have hreplay := hreplays.replay_eq hchanges
  rw [seen] at horder hreplay
  exact (Repository.load_eq_ok_iff hbackend hstream named hsane.sound).mpr
    ⟨hmembers, _, hreplay, horder⟩

end Clients

namespace Order

variable {r : Repository ε Memory η ω} {supply : Nat → Draw}

/-- A client begins an order whose stream is empty, and handles commands and saves with the
version checked, in any order; nobody else writes to the stream, whatever else is done.

A save then succeeds at any moment. The order afterwards is the one before with nothing
pending, at the number of commands that were accepted; its stream is at that version too, and
if there was such a command, what is loaded is the very order in memory. -/
theorem load_eq_saved (hbackend : r.backend = Memory.backend supply)
    (hregistered : Registered r.catalog r.names) (w : World Memory η ω) (id : String)
    (earlier : List (LogCall ε)) (client : Nat) (steps : List (ClientStep ε))
    (hempty : (converse (Memory.access supply) earlier .empty).2.store.members
      (streamName id) = [])
    (hsteps : ∀ s ∈ steps, s.LeftTo client (streamName id)) (htimely : ∀ s ∈ steps, s.Timely) :
    let stream := streamName id
    let start : Clients ε η ω := .opened { w with backend :=
      (converse (Memory.access supply) earlier .empty).2 }
    let begun := start.step r supply id stream (.begin client)
    let c := begun.run r supply id stream steps
    let c' := c.step r supply id stream (.save client true)
    let version := begun.accepted r supply id stream client steps
    begun.FreshAlong r supply id stream (steps ++ [.save client true]) →
      ∃ session session', c.sessions client = some session ∧
        c'.sessions client = some session' ∧ c.saveAnswer r session true = .ok () ∧
        session.order.currentVersion = version ∧
        session'.order = session.order.markSaved version ∧
        c'.store.lastVersion stream = version ∧
        (0 < version → (r.load (aggregateType ε) id c'.world).1 = .ok session'.order) ∧
        (version = 0 → (r.load (aggregateType ε) id c'.world).1 =
          .error (.aggregateNotFound typeName id)) := by
  intro stream start begun c c' version hfresh
  have hstream := hregistered.streamOf_eq id
  have hnamed : stream ≠ "" := streamName_ne_empty id
  have hspares : ∀ s ∈ steps, s.Spares stream := fun s hs => (hsteps s hs).spares
  have hsave : (.save client true : ClientStep ε).LeftTo client stream := ⟨rfl, rfl⟩
  -- The client begins with an order that has seen all there is, which is nothing.
  have hbegun : Clients.Sane id stream begun :=
    (Clients.sane_opened supply id stream w earlier).step hbackend hstream nofun
  have hsane : Clients.Sane id stream c := hbegun.run hbackend hstream hspares
  have hnothing : Clients.UpToDate stream client 0 begun.store begun.sessions
      ⟨.new (aggregateType ε) id, [], []⟩ := ⟨Function.update_self _ _ _, hempty.symm, rfl⟩
  obtain ⟨session, hup⟩ := hnothing.run hbackend hstream hbegun hsteps
  rw [Nat.zero_add] at hup
  obtain ⟨hanswer, session', hsession', horder⟩ := hup.save hbackend hstream hsane hnamed
  -- After the save it has seen all of its stream as well, and nothing is pending.
  have hsane' : Clients.Sane id stream c' := hsane.step hbackend hstream hsave.spares
  have hseen : session'.history = c'.store.members stream := by
    obtain ⟨held, hup'⟩ := hup.step hbackend hstream hsane hsave
    rw [Option.some.inj (hsession'.symm.trans hup'.held)]
    exact hup'.seen
  have hchanges : session'.order.changes = [] := by
    rw [horder]
    rfl
  have hlength : (c'.store.members stream).length = version := by
    have hcurrent := congrArg Aggregate.currentVersion
      ((hsane'.fits client session' hsession').order_eq hchanges)
    rw [horder, hseen] at hcurrent
    exact (Int.ofNat_inj.mp hcurrent).symm
  have hreplays : session'.Replays r.catalog id c'.store := by
    have hrun : begun.run r supply id stream (steps ++ [.save client true]) = c' :=
      List.foldl_append
    have hall := Clients.replays_run hbackend hstream hregistered.knows hbegun
      (Clients.forall_update (fun _ _ h => (Clients.not_held_opened h).elim) (.begun _ id _))
      (List.forall_mem_append.mpr ⟨hspares, by simpa using hsave.spares⟩)
      (List.forall_mem_append.mpr ⟨htimely, by simp [ClientStep.Timely]⟩) hfresh
    rw [hrun] at hall
    exact hall client session' hsession'
  refine ⟨session, session', hup.held, hsession', hanswer, hup.version_eq, horder, ?_, ?_, ?_⟩
  · rw [hsane'.sound.lastVersion_eq, hlength]
  · intro hpos
    refine Clients.load_eq_order hbackend hstream hnamed hsane' hsession' hseen hchanges hreplays ?_
    rw [← List.length_pos_iff, hlength]
    exact hpos
  · intro hzero
    have hmembers : c'.world.backend.store.members stream = [] :=
      List.length_eq_zero_iff.mp (hlength.trans hzero)
    rw [Repository.load_of_no_members hbackend hstream hnamed hmembers]
    rfl

/-- An order is created, saved, changed, refused delivery and saved again, while another
stream is written to. -/
theorem load_eq_saved_refused_delivery :
    let r : Repository OrderEvent Memory Nat Unit :=
      ⟨Memory.backend countingSupply, ⟨.ofList [(typeName, typeHashId)]⟩, catalog OrderEvent,
        fun _ _ listeners => (listeners, []), none⟩
    let steps : List (ClientStep OrderEvent) :=
      [.handle 0 .epoch (.create .nil [⟨.nil, 1⟩]), .save 0 true,
        .other (.append "notes" [.fresh "7" (.raw "Noted" "")] none),
        .handle 0 .epoch (.updateItems [⟨.nil, 2⟩] none), .handle 0 .epoch (.deliver none)]
    let start : Clients OrderEvent Nat Unit := .opened ⟨.empty, .empty, (), none, 0⟩
    let c' := ((start.step r countingSupply "7" "order#7" (.begin 0)).run r countingSupply "7"
      "order#7" steps).step r countingSupply "7" "order#7" (.save 0 true)
    ∃ order : Order OrderEvent, (r.load (aggregateType OrderEvent) "7" c'.world).1 = .ok order ∧
      order.state.items = [⟨.nil, 2⟩] ∧ order.currentVersion = 2 ∧
        c'.store.lastVersion "order#7" = 2 := by
  intro r steps start c'
  have hregistered : Registered r.catalog r.names := ⟨⟨.empty, rfl⟩, ⟨.empty, rfl⟩⟩
  have hepoch : Timestamp.epoch.date.inRange = true := by decide
  have htimely : ∀ s ∈ steps, s.Timely := by
    simp [steps, ClientStep.Timely, hepoch]
  have hsteps : ∀ s ∈ steps, s.LeftTo 0 (streamName "7") := by
    simp [steps, ClientStep.LeftTo, LogCall.Writes, streamName]
  have hfresh : (start.step r countingSupply "7" (streamName "7") (.begin 0)).FreshAlong r
      countingSupply "7" (streamName "7") (steps ++ [.save 0 true]) := by
    refine ⟨⟨?_, ?_⟩, ⟨?_, ?_⟩, ⟨?_, ?_⟩, ⟨?_, ?_⟩, ⟨?_, ?_⟩, ⟨?_, ?_⟩, trivial⟩ <;> decide
  obtain ⟨session, session', hsession, -, -, -, horder, hlast, hload, -⟩ :=
    load_eq_saved rfl hregistered ⟨.empty, .empty, (), none, 0⟩ "7" [] 0 steps rfl hsteps htimely
      hfresh
  cases hsession
  exact ⟨session'.order, hload (by decide), by rw [horder]; rfl, by rw [horder]; rfl, hlast⟩

end Order

end EventLog
