/-
# Clients that may not hear the answer

Any number of clients work on one order, each with its own copy, over a log that loses
answers. Every save expects the version that its order rests on, and nobody else writes.

To be able to say that nothing is stored twice, every accepted command is given a ticket, a
number that is given out once, and a ledger is kept of the tickets and the envelopes of every
save that changed the stream. No client sees any of this and nothing is decided by it.
`Desk.effect_step` lists everything a step can do, and `Desk.Balanced` is what every step
keeps.
-/

import EventLog.Proofs.Order.Clients
import EventLog.Proofs.Repository.LosingAnswers

namespace EventLog

variable {ε η ω : Type} [EventType ε] [Includes OrderEvent ε] [DecidableEq η]

/-- An order in the hands of a client, with a ticket for each pending change. -/
structure Draft (ε : Type) where
  order : Order ε
  tickets : List Nat

/-- The pending changes of a save as they came into the log, with their tickets. -/
structure Commit (ε : Type) where
  tickets : List Nat
  batch : List (Envelope ε)

/-- The log with everything around it, and what the clients have in their hands. -/
structure Desk (ε η ω : Type) where
  world : World (Disturbed ε) η ω
  drafts : Nat → Option (Draft ε)
  /-- How many tickets have been given out. -/
  issued : Nat
  ledger : List (Commit ε)

/-- One step of one client. A save expects the version that the order rests on. -/
inductive DeskStep where
  | begin (client : Nat)
  | load (client : Nat)
  | handle (client : Nat) (now : Timestamp) (command : OrderCommand)
  | save (client : Nat)

/-- After the step the client still has the order it had, changed perhaps but not replaced. -/
def DeskStep.Keeps (client : Nat) (s : DeskStep) : Prop := s ≠ .begin client ∧ s ≠ .load client

/-! ## What holds of every draft -/

/-- What a draft has to do with the length of its stream and with the tickets that have been
given out and spent. -/
structure Draft.Fits (id : String) (length issued : Nat) (spent : List Nat) (draft : Draft ε) :
    Prop where
  id_eq : draft.order.id = id
  exists_events : ∃ events : List OrderEvent, draft.order.changes = events.map (Order.change id)
  originalVersion_le : draft.order.originalVersion ≤ length
  currentVersion_eq :
    draft.order.currentVersion = draft.order.originalVersion + draft.order.changes.length
  length_tickets : draft.tickets.length = draft.order.changes.length
  nodup : draft.tickets.Nodup
  lt_issued : ∀ ticket ∈ draft.tickets, ticket < issued
  /-- While the stream has not gone past the order, none of its changes has been stored. -/
  unspent : draft.order.originalVersion = length → ∀ ticket ∈ draft.tickets, ticket ∉ spent

namespace Draft.Fits

variable {id : String} {length issued : Nat} {spent : List Nat} {draft : Draft ε}

/-- An order without pending changes, loaded from the stream or begun. -/
theorem resting (id : String) (members : List Membership) (state : OrderState) (issued : Nat)
    (spent : List Nat) (hle : members.length ≤ length) :
    Fits (ε := ε) id length issued spent ⟨.restingOn id members state, []⟩ where
  id_eq := rfl
  exists_events := ⟨[], rfl⟩
  originalVersion_le := Int.ofNat_le.mpr hle
  currentVersion_eq := (Int.add_zero _).symm
  length_tickets := rfl
  nodup := .nil
  lt_issued := List.forall_mem_nil _
  unspent _ := List.forall_mem_nil _

/-- A new order. -/
theorem begun (id : String) (length issued : Nat) (spent : List Nat) :
    Fits (ε := ε) id length issued spent ⟨.new (Order.aggregateType ε) id, []⟩ :=
  resting id [] .initial issued spent (Nat.zero_le length)

/-- An order whose changes have been stored and that has heard of it. -/
theorem markSaved (h : draft.Fits id length issued spent)
    (heq : draft.order.originalVersion = length) (entered : List Nat) :
    Fits id (length + draft.order.changes.length) issued entered
      ⟨draft.order.markSaved draft.order.currentVersion, []⟩ where
  id_eq := h.id_eq
  exists_events := ⟨[], rfl⟩
  originalVersion_le := by
    have hcurrent := h.currentVersion_eq
    show draft.order.currentVersion ≤ _
    push_cast
    omega
  currentVersion_eq := (Int.add_zero _).symm
  length_tickets := rfl
  nodup := .nil
  lt_issued := List.forall_mem_nil _
  unspent _ := List.forall_mem_nil _

/-- One more change has the next ticket. -/
theorem handle (h : draft.Fits id length issued spent) (hspent : ∀ ticket ∈ spent, ticket < issued)
    {now : Timestamp} {command : OrderCommand} {order : Order ε}
    (accepted : Order.handle now command draft.order = .ok order) :
    Fits id length (issued + 1) spent ⟨order, draft.tickets ++ [issued]⟩ := by
  obtain ⟨e, -, rfl⟩ := Order.handle_eq_ok_iff.mp accepted
  obtain ⟨events, hevents⟩ := h.exists_events
  have hnew : ∀ ticket ∈ draft.tickets, ticket ≠ issued :=
    fun ticket hmem => Nat.ne_of_lt (h.lt_issued ticket hmem)
  exact {
    id_eq := h.id_eq
    exists_events := ⟨events ++ [e], by simp [hevents, h.id_eq]⟩
    originalVersion_le := h.originalVersion_le
    currentVersion_eq := by
      have hcurrent := h.currentVersion_eq
      simp only [List.length_append, List.length_singleton]
      push_cast
      omega
    length_tickets := by simp [h.length_tickets]
    nodup := by
      rw [List.nodup_append]
      refine ⟨h.nodup, List.nodup_singleton _, fun ticket hmem other hother => ?_⟩
      rw [List.mem_singleton.mp hother]
      exact hnew ticket hmem
    lt_issued := by
      intro ticket hmem
      rcases List.mem_append.mp hmem with hold | hlast
      · exact Nat.lt_succ_of_lt (h.lt_issued ticket hold)
      · rw [List.mem_singleton.mp hlast]
        exact Nat.lt_succ_self issued
    unspent := by
      intro heq ticket hmem
      rcases List.mem_append.mp hmem with hold | hlast
      · exact h.unspent heq ticket hold
      · rw [List.mem_singleton.mp hlast]
        exact fun hin => Nat.lt_irrefl issued (hspent issued hin) }

/-- More tickets may be given out. -/
theorem of_issued (h : draft.Fits id length issued spent) :
    draft.Fits id length (issued + 1) spent :=
  { h with lt_issued := fun ticket hmem => Nat.lt_succ_of_lt (h.lt_issued ticket hmem) }

/-- Once the stream has gone past the order, it does not matter which tickets are spent. -/
theorem of_grown (h : draft.Fits id length issued spent) {later : Nat} (hlt : length < later)
    (entered : List Nat) : draft.Fits id later issued entered :=
  { h with
    originalVersion_le := by
      have hle := h.originalVersion_le
      omega
    unspent := fun heq => by
      have hle := h.originalVersion_le
      omega }

/-- Every pending change can be encoded. -/
theorem encodable (h : draft.Fits id length issued spent) :
    ∀ envelope ∈ Repository.outgoing draft.order,
      ∃ payload, envelope.event.marshal = .ok payload := by
  obtain ⟨events, hevents⟩ := h.exists_events
  exact Order.encodable_outgoing hevents

end Draft.Fits

namespace Desk

/-- Nobody has an order yet, and nothing has been saved. -/
def opened (world : World (Disturbed ε) η ω) : Desk ε η ω := ⟨world, fun _ => none, 0, []⟩

def store (c : Desk ε η ω) : Store := c.world.backend.memory.store

/-- The draw that the next append will take. -/
def draw (supply : Nat → Draw) (c : Desk ε η ω) : Draw := supply c.world.backend.memory.drawn

def put (c : Desk ε η ω) (client : Nat) (draft : Draft ε) : Desk ε η ω :=
  { c with drafts := Function.update c.drafts client (some draft) }

section Steps

variable (r : Repository ε (Disturbed ε) η ω) (supply : Nat → Draw) (id stream : String)

/-- What a save of this draft is answered, with the order and the world afterwards. -/
def save (c : Desk ε η ω) (draft : Draft ε) :
    Except Error Unit × Order ε × World (Disturbed ε) η ω :=
  r.save (Order.aggregateType ε) draft.order (some draft.order.originalVersion) c.world

/-- The ledger after a save of this draft has led to this world. -/
def entered (c : Desk ε η ω) (draft : Draft ε) (after : World (Disturbed ε) η ω) :
    List (Commit ε) :=
  if after.backend.memory.store.members stream = c.store.members stream then c.ledger
  else c.ledger ++ [⟨draft.tickets, Repository.outgoing draft.order⟩]

/-- Carry out one step. A client without an order has nothing to handle or save. -/
def step (c : Desk ε η ω) : DeskStep → Desk ε η ω
  | .begin client => c.put client ⟨.new (Order.aggregateType ε) id, []⟩
  | .load client =>
    match r.loadOrNew (Order.aggregateType ε) id c.world with
    | (.error _, world) => { c with world }
    | (.ok order, world) => { c with world }.put client ⟨order, []⟩
  | .handle client now command =>
    match c.drafts client with
    | none => c
    | some draft =>
      match Order.handle now command draft.order with
      | .error _ => c
      | .ok order =>
        { c with issued := c.issued + 1 }.put client ⟨order, draft.tickets ++ [c.issued]⟩
  | .save client =>
    match c.drafts client with
    | none => c
    | some draft =>
      match c.save r draft with
      | (.error _, order, world) =>
        { c with world, ledger := c.entered stream draft world }.put client
          ⟨order, draft.tickets⟩
      | (.ok (), order, world) =>
        { c with world, ledger := c.entered stream draft world }.put client ⟨order, []⟩

/-- Carry out steps in the order in which they happen. -/
def run (steps : List DeskStep) (c : Desk ε η ω) : Desk ε η ω :=
  steps.foldl (fun c s => c.step r id stream s) c

/-- How many identifiers a step draws. -/
def drawn (c : Desk ε η ω) : DeskStep → Nat
  | .save client => ((c.drafts client).map fun draft => draft.order.changes.length).getD 0
  | _ => 0

/-- Every draw that the steps take is fresh when it is taken. -/
def FreshAlong : List DeskStep → Desk ε η ω → Prop
  | [], _ => True
  | s :: rest, c =>
    (c.draw supply).FreshFor c.store (c.drawn s) ∧ FreshAlong rest (c.step r id stream s)

/-- Everything that a step can do to the log, the drafts, the tickets and the ledger, with
what has to hold for it to happen. Whatever is refused is `idle`. -/
inductive Effect (c : Desk ε η ω) :
    DeskStep → Store → (Nat → Option (Draft ε)) → Nat → List (Commit ε) → Prop
  | idle (s : DeskStep) : Effect c s c.store c.drafts c.issued c.ledger
  | begun {s : DeskStep} {client : Nat} (anew : s = .begin client ∨ s = .load client) :
      Effect c s c.store
        (Function.update c.drafts client (some ⟨.new (Order.aggregateType ε) id, []⟩))
        c.issued c.ledger
  | loaded {client : Nat} {state : OrderState} :
      Effect c (.load client) c.store
        (Function.update c.drafts client
          (some ⟨.restingOn id (c.store.members stream) state, []⟩))
        c.issued c.ledger
  | handled {client : Nat} {now : Timestamp} {command : OrderCommand} {draft : Draft ε}
      {order : Order ε} (held : c.drafts client = some draft)
      (accepted : Order.handle now command draft.order = .ok order) :
      Effect c (.handle client now command) c.store
        (Function.update c.drafts client (some ⟨order, draft.tickets ++ [c.issued]⟩))
        (c.issued + 1) c.ledger
  /-- The changes are stored. The client hears of it and has saved, or it does not and has the
  draft it had. -/
  | committed {client : Nat} {draft : Draft ε} {drafts : Nat → Option (Draft ε)}
      {staged : List (Staged ε)} (held : c.drafts client = some draft) (named : stream ≠ "")
      (changed : draft.order.changes ≠ [])
      (expectation : draft.order.originalVersion = c.store.lastVersion stream)
      (prepared : Staged.ofEnvelopes (c.draw supply) 0 (Repository.outgoing draft.order) =
        .ok staged)
      (answered : drafts = c.drafts ∨ drafts = Function.update c.drafts client
        (some ⟨draft.order.markSaved draft.order.currentVersion, []⟩)) :
      Effect c (.save client) (c.store.grown (c.draw supply).now stream staged) drafts
        c.issued (c.ledger ++ [⟨draft.tickets, Repository.outgoing draft.order⟩])

end Steps

variable {r : Repository ε (Disturbed ε) η ω} {supply : Nat → Draw} {id stream : String}
  {c : Desk ε η ω}

/-- The drafts fit the stream, and the ledger has each ticket once. -/
structure Balanced (id stream : String) (s : Store) (drafts : Nat → Option (Draft ε))
    (issued : Nat) (ledger : List (Commit ε)) : Prop where
  sound : s.Sound
  fits : ∀ client draft, drafts client = some draft →
    draft.Fits id (s.members stream).length issued (ledger.flatMap Commit.tickets)
  nodup : (ledger.flatMap Commit.tickets).Nodup
  lt_issued : ∀ ticket ∈ ledger.flatMap Commit.tickets, ticket < issued
  /-- Every change in the ledger has its ticket. -/
  length_tickets : ∀ commit ∈ ledger, commit.tickets.length = commit.batch.length

omit [DecidableEq η] in
/-- This is what every step keeps. What carries the step that stores changes is that their
order rests on the whole stream, so that their tickets are not spent, and that the stream has
grown afterwards, so that nothing is claimed of the tickets any more. -/
theorem Balanced.effect (h : Balanced id stream c.store c.drafts c.issued c.ledger) {s : DeskStep}
    {after : Store} {drafts : Nat → Option (Draft ε)} {issued : Nat} {ledger : List (Commit ε)}
    (heffect : Effect supply id stream c s after drafts issued ledger) :
    Balanced id stream after drafts issued ledger := by
  cases heffect with
  | idle => exact h
  | begun => exact { h with
      fits := Clients.forall_update h.fits (.begun id _ _ _) }
  | loaded => exact { h with
      fits := Clients.forall_update h.fits (.resting id _ _ _ _ (Nat.le_refl _)) }
  | handled held accepted => exact { h with
      fits := Clients.forall_update
        (fun client draft hdraft => (h.fits client draft hdraft).of_issued)
        ((h.fits _ _ held).handle h.lt_issued accepted)
      lt_issued := fun ticket hmem => Nat.lt_succ_of_lt (h.lt_issued ticket hmem) }
  | @committed client draft drafts staged held named changed expectation prepared answered =>
      have hfits := h.fits client draft held
      have hlength : ((c.store.grown (c.draw supply).now stream staged).members stream).length =
          (c.store.members stream).length + draft.order.changes.length := by
        rw [Store.members_grown, if_pos rfl, List.length_append,
          Repository.length_saved prepared]
      rw [h.sound.lastVersion_eq] at expectation
      have hgrown : (c.store.members stream).length <
          ((c.store.grown (c.draw supply).now stream staged).members stream).length := by
        have hpos := List.length_pos_of_ne_nil changed
        omega
      have hothers : ∀ entered client draft, c.drafts client = some draft → draft.Fits id
          ((c.store.grown (c.draw supply).now stream staged).members stream).length c.issued
          entered :=
        fun entered client draft hdraft => (h.fits client draft hdraft).of_grown hgrown entered
      refine ⟨h.sound.grown _ _ _, ?_, ?_, ?_, ?_⟩
      · rcases answered with rfl | rfl
        · exact hothers _
        · refine Clients.forall_update (hothers _) ?_
          rw [hlength]
          exact hfits.markSaved expectation _
      · rw [List.flatMap_append, List.flatMap_singleton, List.nodup_append]
        refine ⟨h.nodup, hfits.nodup, fun spent hspent ticket hticket heq => ?_⟩
        exact hfits.unspent expectation ticket hticket (heq ▸ hspent)
      · rw [List.flatMap_append, List.flatMap_singleton]
        intro ticket hmem
        rcases List.mem_append.mp hmem with hold | hnew
        · exact h.lt_issued ticket hold
        · exact hfits.lt_issued ticket hnew
      · intro commit hcommit
        rcases List.mem_append.mp hcommit with hold | hnew
        · exact h.length_tickets commit hold
        · rw [List.mem_singleton.mp hnew]
          show draft.tickets.length = (Repository.outgoing draft.order).length
          rw [hfits.length_tickets, Repository.outgoing, List.length_map]

/-! ## What a step can do -/

theorem versionMatches_some_iff {version actual : Int} :
    versionMatches (some version) actual ↔ version = actual := by
  simp [versionMatches]

section Effects

variable (hbackend : r.backend = Disturbed.backend supply)
  (hstream : r.names.streamOf Order.typeName id = .ok stream) (hlossy : c.world.backend.Lossy)
include hbackend hstream hlossy

theorem effect_load (hsound : c.store.Sound) (client : Nat) :
    let after := c.step r id stream (.load client)
    after.world.backend.Lossy ∧
      Effect supply id stream c (.load client) after.store after.drafts after.issued
        after.ledger := by
  obtain ⟨hmemory, hlossy', hloaded⟩ :
      (r.loadOrNew (Order.aggregateType ε) id c.world).2.backend.memory = c.world.backend.memory ∧
      _ ∧ _ := Repository.loadOrNew_of_lossy hbackend hlossy hstream hsound
  intro after
  have hafter : after = c.step r id stream (.load client) := rfl
  rw [step] at hafter
  rcases hanswer : r.loadOrNew (Order.aggregateType ε) id c.world with ⟨answer, world⟩
  rw [hanswer] at hmemory hlossy' hloaded hafter
  have hstore : world.backend.memory.store = c.store := congrArg Memory.store hmemory
  cases answer with
  | error e =>
      rw [hafter]
      refine ⟨hlossy', ?_⟩
      show Effect supply id stream c _ world.backend.memory.store c.drafts c.issued c.ledger
      rw [hstore]
      exact .idle _
  | ok order =>
      rw [hafter]
      refine ⟨hlossy', ?_⟩
      show Effect supply id stream c _ world.backend.memory.store
        (Function.update c.drafts client (some ⟨order, []⟩)) c.issued c.ledger
      rw [hstore]
      rcases hloaded order rfl with rfl | ⟨state, rfl⟩
      · exact .begun (.inr rfl)
      · exact .loaded

omit hbackend hlossy in
/-- A save without pending changes does nothing. -/
theorem save_of_no_changes {draft : Draft ε} (hid : draft.order.id = id)
    (hnothing : draft.order.changes = []) : c.save r draft = (.ok (), draft.order, c.world) :=
  Repository.save_of_no_changes (Order.streamOf_of_id_eq hid hstream) hnothing _

/-- A save that the log refuses leaves everything as it is. -/
theorem step_save_of_refused {client : Nat} {draft : Draft ε}
    (held : c.drafts client = some draft) (hid : draft.order.id = id)
    (changed : draft.order.changes ≠ []) {e : Error}
    (happend : c.store.append (c.draw supply) stream (Repository.outgoing draft.order)
      (some draft.order.originalVersion) = .error e) :
    let after := c.step r id stream (.save client)
    (c.save r draft).1 = .error e ∧ after.world.backend.Lossy ∧ after.store = c.store ∧
      after.drafts = c.drafts ∧ after.issued = c.issued ∧ after.ledger = c.ledger := by
  have hstream' := Order.streamOf_of_id_eq hid hstream
  obtain ⟨world, hsave, hstore, hlossy'⟩ :=
    Repository.lossy_save_of_refused hbackend hlossy hstream' changed happend
  intro after
  have hafter : after = c.step r id stream (.save client) := rfl
  replace hsave : c.save r draft = (.error e, draft.order, world) := hsave
  rw [step, held] at hafter
  dsimp only at hafter
  rw [hsave] at hafter
  have hledger : c.entered stream draft world = c.ledger := by
    rw [entered, hstore]
    exact if_pos rfl
  rw [hafter, hsave]
  exact ⟨rfl, hlossy', hstore, Clients.update_self held, rfl, hledger⟩

/-- A save that the log carries out is entered in the ledger. The client hears of it and has
saved, or it does not and has the draft it had. -/
theorem step_save_of_stored {client : Nat} {draft : Draft ε}
    (held : c.drafts client = some draft) (hid : draft.order.id = id)
    (changed : draft.order.changes ≠ []) {returned : List (Envelope ε)} {s : Store}
    (happend : c.store.append (c.draw supply) stream (Repository.outgoing draft.order)
      (some draft.order.originalVersion) = .ok (returned, s)) :
    let after := c.step r id stream (.save client)
    after.world.backend.Lossy ∧ after.store = s ∧ after.issued = c.issued ∧
      after.ledger = c.ledger ++ [⟨draft.tickets, Repository.outgoing draft.order⟩] ∧
      ((c.save r draft).1 = .ok () ∧ after.drafts = Function.update c.drafts client
          (some ⟨draft.order.markSaved draft.order.currentVersion, []⟩) ∨
        (c.save r draft).1 = .error .cancelled ∧ after.drafts = c.drafts) := by
  have hstream' := Order.streamOf_of_id_eq hid hstream
  obtain ⟨world, hsave, hstore, hlossy'⟩ :=
    Repository.lossy_save_of_stored hbackend hlossy hstream' changed happend
  -- The stream has changed, and that is what the ledger goes by.
  have hledger : c.entered stream draft world =
      c.ledger ++ [⟨draft.tickets, Repository.outgoing draft.order⟩] := by
    obtain ⟨-, -, staged, prepared, -, rfl⟩ := Store.append_eq_ok_iff.mp happend
    rw [entered, if_neg]
    intro hsame
    have hlength := Repository.length_saved prepared c.store.lastPosition
      (c.store.lastVersion stream)
    rw [hstore, Store.members_grown, if_pos rfl, List.append_right_eq_self] at hsame
    rw [hsame] at hlength
    exact changed (List.length_eq_zero_iff.mp hlength.symm)
  intro after
  have hafter : after = c.step r id stream (.save client) := rfl
  rw [step, held] at hafter
  dsimp only at hafter
  rcases hsave with hsave | hsave
  · replace hsave : c.save r draft = (.ok (), draft.order.markSaved draft.order.currentVersion,
      world) := hsave
    rw [hsave] at hafter
    rw [hafter, hsave]
    exact ⟨hlossy', hstore, rfl, hledger, .inl ⟨rfl, rfl⟩⟩
  · replace hsave : c.save r draft = (.error .cancelled, draft.order, world) := hsave
    rw [hsave] at hafter
    rw [hafter, hsave]
    exact ⟨hlossy', hstore, rfl, hledger, .inr ⟨rfl, Clients.update_self held⟩⟩

theorem effect_save (h : Balanced id stream c.store c.drafts c.issued c.ledger) (client : Nat) :
    let after := c.step r id stream (.save client)
    after.world.backend.Lossy ∧
      Effect supply id stream c (.save client) after.store after.drafts after.issued
        after.ledger := by
  cases held : c.drafts client with
  | none =>
      have hafter : c.step r id stream (.save client) = c := by
        rw [step, held]
      rw [hafter]
      exact ⟨hlossy, .idle _⟩
  | some draft =>
      have hfits := h.fits client draft held
      have hid := hfits.id_eq
      by_cases changed : draft.order.changes = []
      · have hafter : c.step r id stream (.save client) = c := by
          have hsave : c.save r draft = _ := save_of_no_changes hstream hid changed
          have htickets : draft.tickets = [] := by
            rw [← List.length_eq_zero_iff, hfits.length_tickets, changed, List.length_nil]
          have hdraft : (⟨draft.order, []⟩ : Draft ε) = draft := by
            rw [← htickets]
          have hledger : c.entered stream draft c.world = c.ledger := if_pos rfl
          rw [step, held]
          dsimp only
          rw [hsave]
          dsimp only
          rw [hdraft, hledger, put, Clients.update_self held]
        rw [hafter]
        exact ⟨hlossy, .idle _⟩
      · cases happend : c.store.append (c.draw supply) stream (Repository.outgoing draft.order)
            (some draft.order.originalVersion) with
        | error e =>
            obtain ⟨-, hlossy', hstore, hdrafts, hissued, hledger⟩ :=
              step_save_of_refused hbackend hstream hlossy held hid changed happend
            refine ⟨hlossy', ?_⟩
            rw [hstore, hdrafts, hissued, hledger]
            exact .idle _
        | ok result =>
            obtain ⟨hlossy', hstore, hissued, hledger, hanswer⟩ :=
              step_save_of_stored hbackend hstream hlossy held hid changed happend
            obtain ⟨named, hmatches, staged, prepared, -, hgrown⟩ :=
              Store.append_eq_ok_iff.mp happend
            refine ⟨hlossy', ?_⟩
            rw [hstore, hissued, hledger, hgrown]
            exact .committed held named changed (versionMatches_some_iff.mp hmatches) prepared
              (hanswer.symm.imp And.right And.right)

/-- A step does nothing to the log, the drafts, the tickets and the ledger but what
`Desk.Effect` lists. -/
theorem effect_step (h : Balanced id stream c.store c.drafts c.issued c.ledger) (s : DeskStep) :
    let after := c.step r id stream s
    after.world.backend.Lossy ∧
      Effect supply id stream c s after.store after.drafts after.issued after.ledger := by
  cases s with
  | begin client => exact ⟨hlossy, .begun (.inl rfl)⟩
  | load client => exact effect_load hbackend hstream hlossy h.sound client
  | handle client now command =>
      rw [step]
      cases held : c.drafts client with
      | none => exact ⟨hlossy, .idle _⟩
      | some draft =>
          cases horder : Order.handle now command draft.order with
          | error e =>
              dsimp only
              rw [horder]
              exact ⟨hlossy, .idle _⟩
          | ok order =>
              dsimp only
              rw [horder]
              exact ⟨hlossy, .handled held horder⟩
  | save client => exact effect_save hbackend hstream hlossy h client

end Effects

/-! ## What a run keeps -/

/-- The log loses nothing but answers, and the books are in order. -/
structure Sane (id stream : String) (c : Desk ε η ω) : Prop where
  lossy : c.world.backend.Lossy
  balanced : Balanced id stream c.store c.drafts c.issued c.ledger

omit [DecidableEq η] in
/-- Where nobody has an order yet, all is well with whatever log there is. -/
theorem sane_opened (supply : Nat → Draw) (id stream : String) (w : World (Disturbed ε) η ω)
    (earlier : List (LogCall ε)) (losses : List Bool) :
    let memory := (converse (Memory.access supply) earlier .empty).2
    Sane id stream (opened { w with backend := .losing memory losses } : Desk ε η ω) := by
  intro memory
  exact {
    lossy := Disturbed.lossy_losing memory losses
    balanced := {
      sound := Memory.sound_converse supply Memory.sound_empty earlier
      fits _ _ held := by cases held
      nodup := .nil
      lt_issued := List.forall_mem_nil _
      length_tickets := List.forall_mem_nil _ } }

section Runs

variable (hbackend : r.backend = Disturbed.backend supply)
  (hstream : r.names.streamOf Order.typeName id = .ok stream)
include hbackend hstream

theorem Sane.effect (h : Sane id stream c) (s : DeskStep) :
    let after := c.step r id stream s
    Effect supply id stream c s after.store after.drafts after.issued after.ledger :=
  (effect_step hbackend hstream h.lossy h.balanced s).2

theorem Sane.step (h : Sane id stream c) (s : DeskStep) : Sane id stream (c.step r id stream s) :=
  ⟨(effect_step hbackend hstream h.lossy h.balanced s).1,
    h.balanced.effect (h.effect hbackend hstream s)⟩

theorem Sane.run (h : Sane id stream c) (steps : List DeskStep) :
    Sane id stream (c.run r id stream steps) := by
  induction steps generalizing c with
  | nil => exact h
  | cons s rest ih => exact ih (h.step hbackend hstream s)

end Runs

end Desk

end EventLog
