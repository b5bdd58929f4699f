/-
# What a load comes to

A load goes through its stream twice. First every event is decoded, by its name and its payload
alone; then the decoded events are applied, each by its transition. It stops at the first thing
that goes wrong, so an event that cannot be decoded decides even if one before it has no
transition. `Repository.assemble_read` says this in one equation, about the bodies behind the
stream: where their envelopes stand, and what headers they carry, plays no part.
-/

import EventLog.Proofs.Repository.InMemory

namespace EventLog

variable {ε η ω σ : Type} [EventType ε]

/-! ## Bodies -/

/-- The bodies behind the memberships of a stream, in version order. -/
def Store.bodies (s : Store) (stream : String) : List StoredEvent :=
  (s.members stream).filterMap fun member => s.events.get? member.eventId

/-- A sound store has a body behind every membership. -/
theorem Store.Sound.length_bodies {s : Store} (h : s.Sound) (stream : String) :
    (s.bodies stream).length = (s.members stream).length :=
  (getElem?_filterMap_of_isSome fun member hmember => h.stored stream member hmember).1

namespace EventCatalog

variable {catalog : EventCatalog ε} {body : StoredEvent} {e : Error}

/-- The event that a body stands for. -/
def decodeBody (catalog : EventCatalog ε) (body : StoredEvent) : Except Error (Event ε) :=
  catalog.decode body.name body.payload

/-- The error with which a body is not decoded: nothing is registered under its name, or what is
cannot be read from its payload. -/
inductive Undecodable (catalog : EventCatalog ε) (body : StoredEvent) : Error → Prop
  | unregistered (h : catalog.get? body.name = none) :
      Undecodable catalog body (.unknownEventType body.name)
  | malformed {blank : Event ε} {e : Error} (h : catalog.get? body.name = some blank)
      (hfails : blank.unmarshal body.payload = .error e) : Undecodable catalog body e

/-- No payload is decoded to the error that says an aggregate is missing. -/
def Plain (catalog : EventCatalog ε) : Prop :=
  ∀ name payload other missing,
    catalog.decode name payload ≠ .error (.aggregateNotFound other missing)

theorem decodeBody_eq_error_iff :
    catalog.decodeBody body = .error e ↔ catalog.Undecodable body e := by
  constructor
  · intro h
    unfold decodeBody decode at h
    cases hblank : catalog.get? body.name with
    | none =>
        rw [hblank] at h
        cases h
        exact .unregistered hblank
    | some blank =>
        rw [hblank] at h
        exact .malformed hblank h
  · intro h
    unfold decodeBody decode
    cases h with
    | unregistered h => rw [h]
    | malformed h hfails =>
        rw [h]
        exact hfails

end EventCatalog

/-! ## Events that are applied -/

/-- An event that is refused was not expected; there is no other reason. -/
theorem Transitions.unexpected_of_change? {t : Transitions ε σ} {event : Event ε} {e : Error}
    (h : t.change? event = .error e) : ∃ cause, e = .unexpected cause := by
  unfold change? at h
  split at h
  · cases h
    exact ⟨_, rfl⟩
  · split at h
    · cases h
      exact ⟨_, rfl⟩
    · split at h
      · cases h
      · cases h
        exact ⟨_, rfl⟩

namespace Aggregate

variable {type : AggregateType ε σ} {a : Aggregate ε σ} {history : List (Envelope ε)}

/-- History whose events all have a transition is applied event by event. -/
theorem rebuild_of_changes (heven : a.originalVersion = a.currentVersion) {changes : List (σ → σ)}
    (h : (history.map Envelope.event).mapM type.transitions.change? = .ok changes) :
    a.rebuild type history = (.ok (), ⟨a.id, a.currentVersion + history.length,
      a.currentVersion + history.length, a.changes,
      changes.foldl (fun state change => change state) a.state⟩) := by
  induction history generalizing a changes with
  | nil =>
      obtain ⟨id, original, current, pending, state⟩ := a
      cases h
      cases heven
      simp [rebuild]
  | cons envelope rest ih =>
      rw [List.map_cons, List.mapM_cons] at h
      obtain ⟨change, hchange, h⟩ := Except.bind_eq_ok_iff.mp h
      obtain ⟨others, hothers, h⟩ := Except.bind_eq_ok_iff.mp h
      cases h
      have happly : type.transitions.apply envelope.event a.state = .ok (change a.state) := by
        rw [Transitions.apply, hchange]
        rfl
      refine rebuild_cons_eq_ok_iff.mpr ⟨change a.state, happly, ?_⟩
      have hlength : a.currentVersion + 1 + rest.length =
          a.currentVersion + (envelope :: rest).length := by
        rw [List.length_cons]
        push_cast
        omega
      rw [ih rfl hothers, hlength]
      rfl

/-- The first event without a transition ends the replay. -/
theorem rebuild_of_refused {e : Error}
    (h : Except.FirstFailure type.transitions.change? (history.map Envelope.event) e) :
    (a.rebuild type history).1 = .error e := by
  induction history generalizing a with
  | nil => simp [Except.FirstFailure] at h
  | cons envelope rest ih =>
      rw [rebuild, replayOne, apply, Transitions.apply]
      rw [List.map_cons, Except.firstFailure_cons] at h
      obtain hrefused | ⟨⟨change, hchange⟩, hrest⟩ := h
      · rw [hrefused]
        rfl
      · rw [hchange]
        exact ih hrest

end Aggregate

namespace Repository

variable {type : AggregateType ε σ} {stream id : String}

/-! ## The two passes -/

section AnyBackend

variable {β : Type} {r : Repository ε β η ω}

/-- Decoding what is read of memberships with bodies is decoding the bodies. -/
theorem map_event_mapM_decode {s : Store} {members : List Membership}
    (stored : ∀ member ∈ members, s.hasEvent member.eventId = true) :
    ((members.filterMap s.envelope?).mapM (r.decode id)).map (List.map Envelope.event) =
      (members.filterMap fun member => s.events.get? member.eventId).mapM
        r.catalog.decodeBody := by
  induction members with
  | nil => rfl
  | cons member rest ih =>
      obtain ⟨body, hbody⟩ := Store.exists_body_of_hasEvent (stored member List.mem_cons_self)
      have hrest := ih fun other hother => stored other (List.mem_cons_of_mem _ hother)
      rw [List.filterMap_cons_some (Store.envelope?_eq_some hbody),
        List.filterMap_cons_some (by exact hbody), List.mapM_cons, List.mapM_cons, ← hrest]
      -- What was read holds its body as it was stored, and decoding looks at nothing else.
      have hfirst : r.decode id (.stored member.eventId member.version member.position
          body.headers (.raw body.name body.payload)) = (r.catalog.decodeBody body).map fun event =>
            ⟨some member.eventId, id, some member.version, some member.position, body.headers,
              event⟩ := by
        show (r.catalog.decode body.name body.payload).bind _ = _
        rw [EventCatalog.decodeBody]
        cases r.catalog.decode body.name body.payload <;> rfl
      rw [hfirst]
      cases r.catalog.decodeBody body with
      | error e => rfl
      | ok event => cases (rest.filterMap s.envelope?).mapM (r.decode id) <;> rfl

/-- Whatever a sound store's stream is: it is missing if it has no members, and otherwise it is
decoded, then applied, and the aggregate rests on all of it. -/
theorem assemble_read (r : Repository ε β η ω) (type : AggregateType ε σ) (id : String)
    {s : Store} (hsound : s.Sound) :
    r.assemble type id (s.read stream) =
      if s.members stream = [] then .error (.aggregateNotFound type.name id)
      else do
        let events ← (s.bodies stream).mapM r.catalog.decodeBody
        let changes ← events.mapM type.transitions.change?
        return .restingOn id (s.members stream)
          (changes.foldl (fun state change => change state) type.initial) := by
  have hlength : (s.read stream : List (Envelope ε)).length = _ := hsound.length_read stream
  have hempty : (s.read stream : List (Envelope ε)).isEmpty = true ↔ s.members stream = [] := by
    rw [List.isEmpty_iff, ← List.length_eq_zero_iff, hlength, List.length_eq_zero_iff]
  have hdecoded : ((s.read stream).mapM (r.decode id)).map (List.map Envelope.event) =
      (s.bodies stream).mapM r.catalog.decodeBody := by
    rw [Store.read_eq]
    exact map_event_mapM_decode (hsound.stored stream)
  unfold assemble
  by_cases hmembers : s.members stream = []
  · rw [if_pos (hempty.mpr hmembers), if_pos hmembers]
  rw [if_neg (fun h => hmembers (hempty.mp h)), if_neg hmembers, ← hdecoded]
  cases hhistory : (s.read stream).mapM (r.decode id) with
  | error e => rfl
  | ok history =>
      show _ = ((history.map Envelope.event).mapM type.transitions.change?).bind _
      dsimp only [bind, Except.bind]
      cases hchanges : (history.map Envelope.event).mapM type.transitions.change? with
      | error e =>
          have hrefused : ((Aggregate.new type id).rebuild type history).1 = .error e :=
            Aggregate.rebuild_of_refused (Except.mapM_eq_error_iff.mp hchanges)
          generalize (Aggregate.new type id).rebuild type history = rebuilt at hrefused
          obtain ⟨answer, left⟩ := rebuilt
          cases hrefused
          rfl
      | ok changes =>
          have hrebuilt : (Aggregate.new type id).rebuild type history = _ :=
            Aggregate.rebuild_of_changes rfl hchanges
          rw [hrebuilt, Except.length_of_mapM hhistory, hlength]
          simp [Aggregate.new, Aggregate.restingOn, pure, Except.pure]

section Answers

variable {s : Store} (hsound : s.Sound)
include hsound

theorem assemble_of_no_members (h : s.members stream = []) :
    r.assemble type id (s.read stream) = .error (.aggregateNotFound type.name id) := by
  rw [assemble_read r type id hsound, if_pos h]

/-- The first body that is not decoded decides. -/
theorem assemble_of_firstFailure {e : Error}
    (h : Except.FirstFailure r.catalog.decodeBody (s.bodies stream) e) :
    r.assemble type id (s.read stream) = .error e := by
  have hmembers : s.members stream ≠ [] := by
    intro hnone
    simp [Store.bodies, hnone, Except.FirstFailure] at h
  rw [assemble_read r type id hsound, if_neg hmembers]
  exact Except.bind_eq_error_iff.mpr (.inl (Except.mapM_eq_error_iff.mpr h))

/-- A stream from which an event is decoded has members. -/
theorem members_ne_nil_of_mem {decoded : List (Event ε)} {event : Event ε}
    (h : (s.bodies stream).mapM r.catalog.decodeBody = .ok decoded) (hevent : event ∈ decoded) :
    s.members stream ≠ [] := by
  intro hnone
  have hlength := Except.length_of_mapM h
  rw [hsound.length_bodies, hnone] at hlength
  exact List.ne_nil_of_mem hevent (List.length_eq_zero_iff.mp hlength)

/-- Where every body is decoded, the events decide. -/
theorem assemble_of_decoded {decoded : List (Event ε)}
    (h : (s.bodies stream).mapM r.catalog.decodeBody = .ok decoded)
    (hmembers : s.members stream ≠ []) :
    r.assemble type id (s.read stream) =
      (decoded.mapM type.transitions.change?).map fun changes =>
        .restingOn id (s.members stream)
          (changes.foldl (fun state change => change state) type.initial) := by
  rw [assemble_read r type id hsound, if_neg hmembers, h]
  show (decoded.mapM type.transitions.change?).bind _ = _
  cases decoded.mapM type.transitions.change? <;> rfl

/-- That an aggregate is missing can be an answer of the catalog; if not, there is nothing in its
stream. -/
theorem missing_cases {other missing : String}
    (h : r.assemble type id (s.read stream) = .error (.aggregateNotFound other missing)) :
    s.members stream = [] ∨ Except.FirstFailure r.catalog.decodeBody (s.bodies stream)
      (.aggregateNotFound other missing) := by
  by_cases hmembers : s.members stream = []
  · exact .inl hmembers
  rw [assemble_read r type id hsound, if_neg hmembers] at h
  obtain hdecoded | ⟨events, -, h⟩ := Except.bind_eq_error_iff.mp h
  · exact .inr (Except.mapM_eq_error_iff.mp hdecoded)
  · obtain hchanges | ⟨changes, -, hnever⟩ := Except.bind_eq_error_iff.mp h
    · obtain ⟨event, -, hevent⟩ := Except.exists_error_of_mapM hchanges
      obtain ⟨cause, hcause⟩ := Transitions.unexpected_of_change? hevent
      cases hcause
    · cases hnever

/-- A stream is not found only if there is nothing in it. -/
theorem members_eq_nil_of_notFound (plain : r.catalog.Plain) {other missing : String}
    (h : r.assemble type id (s.read stream) = .error (.aggregateNotFound other missing)) :
    s.members stream = [] := by
  obtain hmembers | ⟨before, body, rest, -, -, hbody⟩ := missing_cases hsound h
  · exact hmembers
  · exact (plain _ _ _ _ hbody).elim

end Answers

end AnyBackend

end Repository

end EventLog
