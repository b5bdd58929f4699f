/-
# Clients at work on one order

Any number of clients hold an order with the same identifier, each its own copy, over one
log in memory. Their steps interleave in any way: a client begins or loads the order, handles
a command, saves with or without the version its order rests on; and others put calls to the
log itself, to the order's stream as to any other.

Beside its order each session keeps what no program keeps: which memberships the order was
loaded from and which its own saves have added. Nothing is decided by these records; they are
there to say what an order has seen of its stream. `Clients.effect_step` lists everything a
step can do to the log and to the sessions, and later proofs split on that list alone.
-/

import EventLog.Proofs.Order.Handling
import Mathlib.Logic.Function.Basic

namespace EventLog

variable {ε η ω : Type} [EventType ε] [Includes OrderEvent ε] [DecidableEq η]

/-- An order in the hands of a client, with the memberships it was loaded from and those
that its own saves have added. -/
structure Session (ε : Type) where
  order : Order ε
  loaded : List Membership
  saved : List Membership

namespace Session

/-- What the order has seen of its stream. -/
def history (session : Session ε) : List Membership := session.loaded ++ session.saved

/-- The version a save is to expect, if it is to expect one. -/
def expected (session : Session ε) (checked : Bool) : Option Int :=
  if checked then some session.order.originalVersion else none

end Session

/-- The log with everything around it, and the sessions of the clients. -/
structure Clients (ε η ω : Type) where
  world : World Memory η ω
  sessions : Nat → Option (Session ε)

/-- One step of one client, or a call to the log by somebody else. -/
inductive ClientStep (ε : Type) where
  | begin (client : Nat)
  | load (client : Nat)
  | handle (client : Nat) (now : Timestamp) (command : OrderCommand)
  /-- A checked save expects the version the order rests on, any other save none. -/
  | save (client : Nat) (checked : Bool)
  | other (call : LogCall ε)

namespace ClientStep

/-- The step does not delete this stream. -/
def Spares (stream : String) (s : ClientStep ε) : Prop := s ≠ .other (.delete stream)

/-- After the step the client still has the order it had, changed perhaps but not replaced. -/
def Keeps (client : Nat) (s : ClientStep ε) : Prop := s ≠ .begin client ∧ s ≠ .load client

/-- The clock of the step says a time that a payload can carry. -/
def Timely : ClientStep ε → Prop
  | handle _ now _ => now.date.inRange = true
  | _ => True

end ClientStep

namespace Clients

/-- What holds of everything that clients have in their hands, and of something new, holds of
everything after one of them has taken the new thing instead. -/
theorem forall_update {α : Type} {P : α → Prop} {hands : Nat → Option α}
    (h : ∀ client held, hands client = some held → P held) {client : Nat} {new : α}
    (hnew : P new) :
    ∀ other held, Function.update hands client (some new) other = some held → P held := by
  intro other held hheld
  by_cases heq : other = client
  · rw [heq, Function.update_self] at hheld
    cases hheld
    exact hnew
  · rw [Function.update_of_ne heq] at hheld
    exact h other held hheld

/-- Giving a client what it has changes nothing. -/
theorem update_self {α : Type} {hands : Nat → Option α} {client : Nat} {held : α}
    (h : hands client = some held) : Function.update hands client (some held) = hands := by
  rw [← h]
  exact Function.update_eq_self client hands

/-- Nobody has an order yet. -/
def opened (world : World Memory η ω) : Clients ε η ω := ⟨world, fun _ => none⟩

def store (c : Clients ε η ω) : Store := c.world.backend.store

/-- The draw that the next append will take. -/
def draw (supply : Nat → Draw) (c : Clients ε η ω) : Draw := supply c.world.backend.drawn

def put (c : Clients ε η ω) (client : Nat) (session : Session ε) : Clients ε η ω :=
  { c with sessions := Function.update c.sessions client (some session) }

section Steps

variable (r : Repository ε Memory η ω) (supply : Nat → Draw) (id stream : String)

/-- The memberships an order is loaded from: all there are, if there is anything to load. -/
def readable (c : Clients ε η ω) : List Membership :=
  match (r.load (Order.aggregateType ε) id c.world).1 with
  | .ok _ => c.store.members stream
  | .error _ => []

/-- Carry out one step. A client without an order has nothing to handle or save. -/
def step (c : Clients ε η ω) : ClientStep ε → Clients ε η ω
  | .begin client => c.put client ⟨.new (Order.aggregateType ε) id, [], []⟩
  | .load client =>
    match r.loadOrNew (Order.aggregateType ε) id c.world with
    | (.error _, world) => { c with world }
    | (.ok order, world) => { c with world }.put client ⟨order, c.readable r id stream, []⟩
  | .handle client now command =>
    match c.sessions client with
    | none => c
    | some session =>
      match Order.handle now command session.order with
      | .error _ => c
      | .ok order => c.put client { session with order }
  | .save client checked =>
    match c.sessions client with
    | none => c
    | some session =>
      match r.save (Order.aggregateType ε) session.order (session.expected checked) c.world with
      | (.error _, order, world) => { c with world }.put client { session with order }
      | (.ok (), order, world) =>
        { c with world }.put client
          { session with
            order
            saved := session.saved ++
              (world.backend.store.members stream).drop (c.store.members stream).length }
  | .other call =>
    { c with
      world := { c.world with backend := (call.ask (Memory.access supply) c.world.backend).2 } }

/-- Carry out steps in the order in which they happen. -/
def run (steps : List (ClientStep ε)) (c : Clients ε η ω) : Clients ε η ω :=
  steps.foldl (fun c s => c.step r supply id stream s) c

/-- What a save of this session would be answered now. -/
def saveAnswer (c : Clients ε η ω) (session : Session ε) (checked : Bool) : Except Error Unit :=
  (r.save (Order.aggregateType ε) session.order (session.expected checked) c.world).1

/-- How many identifiers a step draws. -/
def drawn (c : Clients ε η ω) : ClientStep ε → Nat
  | .save client _ => ((c.sessions client).map fun session => session.order.changes.length).getD 0
  | .other call => call.drawn
  | _ => 0

/-- Every draw that the steps take is fresh when it is taken. -/
def FreshAlong : List (ClientStep ε) → Clients ε η ω → Prop
  | [], _ => True
  | s :: rest, c =>
    (c.draw supply).FreshFor c.store (c.drawn s) ∧ FreshAlong rest (c.step r supply id stream s)

/-- Everything that a step can do to the log and to the sessions, with what has to hold for
it to happen. Whatever is refused is `idle`. -/
inductive Effect (c : Clients ε η ω) :
    ClientStep ε → Store → (Nat → Option (Session ε)) → Prop
  | idle (s : ClientStep ε) : Effect c s c.store c.sessions
  | begun {s : ClientStep ε} {client : Nat} (anew : s = .begin client ∨ s = .load client) :
      Effect c s c.store
        (Function.update c.sessions client (some ⟨.new (Order.aggregateType ε) id, [], []⟩))
  | loaded {client : Nat} {state : OrderState}
      (replayed : c.store.replay r.catalog (Order.aggregateType ε) .initial
        (c.store.members stream) = some state) :
      Effect c (.load client) c.store
        (Function.update c.sessions client
          (some ⟨.restingOn id (c.store.members stream) state, c.store.members stream, []⟩))
  | handled {client : Nat} {now : Timestamp} {command : OrderCommand} {session : Session ε}
      {order : Order ε} (held : c.sessions client = some session)
      (accepted : Order.handle now command session.order = .ok order) :
      Effect c (.handle client now command) c.store
        (Function.update c.sessions client (some { session with order }))
  | saved {client : Nat} {checked : Bool} {session : Session ε} {staged : List (Staged ε)}
      (held : c.sessions client = some session) (named : stream ≠ "")
      (expectation : versionMatches (session.expected checked) (c.store.lastVersion stream))
      (prepared : Staged.ofEnvelopes (c.draw supply) 0 (Repository.outgoing session.order) =
        .ok staged) :
      Effect c (.save client checked) (c.store.grown (c.draw supply).now stream staged)
        (Function.update c.sessions client (some
          { session with
            order := session.order.markSaved session.order.currentVersion
            saved := session.saved ++ Store.membersFrom c.store.lastPosition
              (c.store.lastVersion stream) (staged.map Staged.eventId) }))
  | called {call : LogCall ε} {after : Store} (effect : call.Effect (c.draw supply) c.store after) :
      Effect c (.other call) after c.sessions

end Steps

variable {r : Repository ε Memory η ω} {supply : Nat → Draw} {id stream : String}
  {c : Clients ε η ω}

/-- A loading step loads the order, begins it or is refused. -/
theorem effect_load (hbackend : r.backend = Memory.backend supply)
    (hstream : r.names.streamOf Order.typeName id = .ok stream) (hsound : c.store.Sound)
    (client : Nat) :
    Effect r supply id stream c (.load client) (c.step r supply id stream (.load client)).store
      (c.step r supply id stream (.load client)).sessions := by
  have hworld : (r.loadOrNew (Order.aggregateType ε) id c.world).2.backend = c.world.backend :=
    Repository.backend_loadOrNew hbackend
  rw [step]
  rcases hanswer : r.loadOrNew (Order.aggregateType ε) id c.world with ⟨answer, world⟩
  rw [hanswer] at hworld
  have hstore : world.backend.store = c.store := congrArg Memory.store hworld
  cases answer with
  | error e =>
      show Effect r supply id stream c _ world.backend.store c.sessions
      rw [hstore]
      exact .idle _
  | ok order =>
      show Effect r supply id stream c _ world.backend.store (Function.update c.sessions client _)
      rw [hstore]
      rcases Repository.loadOrNew_eq_ok (congrArg Prod.fst hanswer) with hload | ⟨⟨_, _, hload⟩, rfl⟩
      · have hnamed := Repository.named_of_load hstream hload
        obtain ⟨-, state, hreplay, rfl⟩ :=
          (Repository.load_eq_ok_iff hbackend hstream hnamed hsound).mp hload
        rw [readable, hload]
        exact .loaded hreplay
      · rw [readable, hload]
        exact .begun (.inr rfl)

/-- A saving step appends the pending changes or is refused. -/
theorem effect_save (hbackend : r.backend = Memory.backend supply)
    (hstream : r.names.streamOf Order.typeName id = .ok stream)
    (hids : ∀ client session, c.sessions client = some session → session.order.id = id)
    (client : Nat) (checked : Bool) :
    Effect r supply id stream c (.save client checked)
      (c.step r supply id stream (.save client checked)).store
      (c.step r supply id stream (.save client checked)).sessions := by
  rw [step]
  cases hsession : c.sessions client with
  | none => exact .idle _
  | some session =>
      have hstream' := Order.streamOf_of_id_eq (hids client session hsession) hstream
      by_cases hchanges : session.order.changes = []
      · dsimp only
        rw [Repository.save_of_no_changes hstream' hchanges]
        have hnothing : (c.world.backend.store.members stream).drop
            (c.store.members stream).length = [] := List.drop_length
        dsimp only
        rw [hnothing, List.append_nil]
        show Effect r supply id stream c _ c.store
          (Function.update c.sessions client (some session))
        rw [update_self hsession]
        exact .idle _
      · dsimp only
        cases happend : c.store.append (c.draw supply) stream
            (Repository.outgoing session.order) (session.expected checked) with
        | error e =>
            obtain ⟨world, hsave, hstore⟩ :=
              Repository.save_of_refused hbackend hstream' hchanges happend
            rw [hsave]
            show Effect r supply id stream c _ world.backend.store
              (Function.update c.sessions client (some session))
            rw [hstore, update_self hsession]
            exact .idle _
        | ok result =>
            obtain ⟨returned, after⟩ := result
            obtain ⟨world, hsave, hstore⟩ :=
              Repository.save_of_stored hbackend hstream' hchanges happend
            obtain ⟨hnamed, hversion, staged, hstaged, -, rfl⟩ := Store.append_eq_ok_iff.mp happend
            have hadded : (world.backend.store.members stream).drop
                (c.store.members stream).length =
                Store.membersFrom c.store.lastPosition (c.store.lastVersion stream)
                  (staged.map Staged.eventId) := by
              rw [hstore, Store.members_grown, if_pos rfl, List.drop_left]
            rw [hsave]
            dsimp only
            rw [hadded]
            show Effect r supply id stream c _ world.backend.store
              (Function.update c.sessions client _)
            rw [hstore]
            exact .saved hsession hnamed hversion hstaged

/-- A step does nothing to the log and the sessions but what `Clients.Effect` lists. -/
theorem effect_step (hbackend : r.backend = Memory.backend supply)
    (hstream : r.names.streamOf Order.typeName id = .ok stream) (hsound : c.store.Sound)
    (hids : ∀ client session, c.sessions client = some session → session.order.id = id)
    (s : ClientStep ε) :
    Effect r supply id stream c s (c.step r supply id stream s).store
      (c.step r supply id stream s).sessions := by
  cases s with
  | begin client => exact .begun (.inl rfl)
  | load client => exact effect_load hbackend hstream hsound client
  | handle client now command =>
      rw [step]
      cases hsession : c.sessions client with
      | none => exact .idle _
      | some session =>
          cases horder : Order.handle now command session.order with
          | error e =>
              dsimp only
              rw [horder]
              exact .idle _
          | ok order =>
              dsimp only
              rw [horder]
              exact .handled hsession horder
  | save client checked => exact effect_save hbackend hstream hids client checked
  | other call => exact .called (Memory.effect_ask supply c.world.backend call)

/-! ## What a step does to the log -/

omit [DecidableEq η] in
/-- A step puts one call to the log, or leaves it alone. -/
theorem Effect.exists_call {s : ClientStep ε} {after : Store}
    {sessions : Nat → Option (Session ε)} (h : Effect r supply id stream c s after sessions) :
    after = c.store ∨ ∃ call : LogCall ε, call.Effect (c.draw supply) c.store after ∧
      call.drawn = c.drawn s ∧ (s.Spares stream → call ≠ .delete stream) := by
  cases h with
  | idle => exact .inl rfl
  | begun => exact .inl rfl
  | loaded => exact .inl rfl
  | handled => exact .inl rfl
  | saved held named expectation prepared =>
      refine .inr ⟨_, .appended named prepared expectation, ?_, fun _ => nofun⟩
      simp [drawn, held, LogCall.drawn, Repository.outgoing]
  | called effect =>
      refine .inr ⟨_, effect, rfl, ?_⟩
      rintro hspares rfl
      exact hspares rfl

end Clients

end EventLog
