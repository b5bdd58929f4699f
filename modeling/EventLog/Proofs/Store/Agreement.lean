/-
# Stores that agree on a stream

All streams of a log share one map of bodies and one counter of positions, so that writing to one
stream leaves another alone has to be proved. What a read of a stream depends on is little: its
memberships and the bodies behind them. Two stores that `AgreeOn` a stream in this sense cannot be
told apart by any question about it (`Memory.AnswersAlike`), and a call that writes elsewhere
changes neither, provided its identifiers are drawn afresh: an identifier drawn a second time
replaces a body wherever it stands.
-/

import EventLog.Proofs.Store.Reading

namespace EventLog

variable {ε : Type} [EventType ε]

namespace Store

/-- The stream has the same memberships in both stores, with the same bodies behind them. -/
structure AgreeOn (stream : String) (s after : Store) : Prop where
  members : after.members stream = s.members stream
  bodies : ∀ member ∈ s.members stream,
    after.events.get? member.eventId = s.events.get? member.eventId

namespace AgreeOn

variable {stream : String} {s middle after : Store}

theorem refl (stream : String) (s : Store) : AgreeOn stream s s := ⟨rfl, fun _ _ => rfl⟩

theorem trans (first : AgreeOn stream s middle) (second : AgreeOn stream middle after) :
    AgreeOn stream s after where
  members := second.members.trans first.members
  bodies member hmember :=
    (second.bodies member (first.members ▸ hmember)).trans (first.bodies member hmember)

variable (h : AgreeOn stream s after)

include h

theorem lastVersion_eq : after.lastVersion stream = s.lastVersion stream := by
  rw [lastVersion, lastVersion, h.members]

variable {spec : ReadSpec} (hspec : spec.stream = stream)

include hspec

/-- The same memberships pass the filters, which look at positions and bodies only. -/
theorem matching_eq : after.matching spec = s.matching spec := by
  rw [matching, matching, hspec, h.members]
  congr 1
  apply List.filter_congr
  intro member hmember
  rw [admitted, admitted, h.bodies member (ReadSpec.mem_directed.mp hmember)]

theorem count_eq : after.count spec = s.count spec := by
  rw [count, count, h.matching_eq hspec]

omit [EventType ε] in
theorem query_eq : (after.query spec : List (Envelope ε)) = s.query spec := by
  rw [query, query, h.matching_eq hspec]
  apply List.filterMap_congr
  intro member hmember
  have hmember' : member ∈ s.members stream := by
    rw [← hspec]
    exact mem_members_of_mem_matching hmember
  rw [envelope?, envelope?, h.bodies member hmember']

end AgreeOn

end Store

/-- A call that writes to other streams, with identifiers drawn afresh, leaves a stream as it is. -/
theorem LogCall.Effect.agreeOn {draw : Draw} {s after : Store} {call : LogCall ε}
    (h : call.Effect draw s after) (hsound : s.Sound) (fresh : draw.FreshFor s call.drawn)
    {stream : String} (hothers : ¬ call.Writes stream) : s.AgreeOn stream after where
  members := h.members_eq hothers
  bodies member hmember := h.get?_events fresh (hsound.stored stream member hmember)

namespace Memory

variable {supply : Nat → Draw} {memory : Memory} {stream : String}

/-- The version of a stream does not even depend on how identifiers are drawn. -/
theorem lastVersion_converse {calls : List (LogCall ε)}
    (hothers : ∀ call ∈ calls, ¬ call.Writes stream) :
    (converse (access supply) calls memory).2.store.lastVersion stream =
      memory.store.lastVersion stream := by
  -- Bodies may change under a repeated identifier, memberships do not.
  suffices hmembers : (converse (access supply) calls memory).2.store.members stream =
      memory.store.members stream by
    rw [Store.lastVersion, Store.lastVersion, hmembers]
  induction calls generalizing memory with
  | nil => rfl
  | cons call rest ih =>
      have hfirst := (effect_ask supply memory call).members_eq (hothers call List.mem_cons_self)
      rw [← hfirst]
      exact ih fun other hother => hothers other (List.mem_cons_of_mem _ hother)

/-- Calls that write to other streams leave a stream as it is. -/
theorem agreeOn_converse (hsound : memory.store.Sound) {calls : List (LogCall ε)}
    (hothers : ∀ call ∈ calls, ¬ call.Writes stream) (fresh : FreshAlong supply calls memory) :
    memory.store.AgreeOn stream (converse (access supply) calls memory).2.store := by
  induction calls generalizing memory with
  | nil => exact .refl _ _
  | cons call rest ih =>
      have heffect := effect_ask supply memory call
      have hfirst := heffect.agreeOn hsound fresh.1 (hothers call List.mem_cons_self)
      exact hfirst.trans (ih (hsound.effect heffect)
        (fun other hother => hothers other (List.mem_cons_of_mem _ hother)) fresh.2)

end Memory

/-! ## Questions about a stream -/

namespace ReadQuery

theorem stream_of_build {q : ReadQuery} {spec : ReadSpec} (h : q.build = .ok spec) :
    q.stream = some spec.stream := by
  unfold build at h
  split at h
  · cases h
  · split at h
    · cases h
    · split at h
      · cases h
      · split at h
        · cases h
        · cases h
          assumption

section Answers

variable {κ α : Type} {before after : κ} {stream : String} {q : ReadQuery}

/-- Where the checked reads of a stream are answered alike, so are the queries about it. -/
theorem answer_congr {ask : ReadSpec → StateM κ (Except Error α)} (hq : q.stream = some stream)
    (h : ∀ spec : ReadSpec, spec.stream = stream → (ask spec after).1 = (ask spec before).1) :
    (q.answer ask after).1 = (q.answer ask before).1 := by
  unfold answer
  cases hbuild : q.build with
  | error e => rfl
  | ok spec => exact h spec (Option.some.inj ((stream_of_build hbuild).symm.trans hq))

omit [EventType ε] in
theorem first_congr {ask : ReadSpec → StateM κ (Except Error (List (Envelope ε)))}
    (hq : q.stream = some stream)
    (h : ∀ spec : ReadSpec, spec.stream = stream → (ask spec after).1 = (ask spec before).1) :
    (q.first ask after).1 = (q.first ask before).1 :=
  congrArg (fun answer => answer.map List.head?) (answer_congr hq h)

end Answers

end ReadQuery

/-- Nothing that can be asked about a stream tells the two logs apart. -/
structure Memory.AnswersAlike (ε : Type) [EventType ε] (supply : Nat → Draw) (stream : String)
    (before after : Memory) : Prop where
  lastVersion : ((access (ε := ε) supply).lastVersion stream after).1 =
    ((access (ε := ε) supply).lastVersion stream before).1
  toList : ∀ q : ReadQuery, q.stream = some stream →
    (q.toList (access (ε := ε) supply).query after).1 =
      (q.toList (access (ε := ε) supply).query before).1
  count : ∀ q : ReadQuery, q.stream = some stream →
    (q.count (access (ε := ε) supply).count after).1 =
      (q.count (access (ε := ε) supply).count before).1
  /-- Asking for the last event names the stream itself. -/
  last : ∀ q : ReadQuery,
    (q.last stream (access (ε := ε) supply).query after).1 =
      (q.last stream (access (ε := ε) supply).query before).1
  event : ∀ (q : ReadQuery) (id : Uuid), q.stream = some stream →
    (q.event id (access (ε := ε) supply).query after).1 =
      (q.event id (access (ε := ε) supply).query before).1
  events : ∀ (q : ReadQuery) (ids : List Uuid), q.stream = some stream →
    (q.events ids (access (ε := ε) supply).query after).1 =
      (q.events ids (access (ε := ε) supply).query before).1

theorem Memory.answersAlike_of_agreeOn {supply : Nat → Draw} {stream : String}
    {before after : Memory} (h : before.store.AgreeOn stream after.store) :
    AnswersAlike ε supply stream before after := by
  have hquery : ∀ spec : ReadSpec, spec.stream = stream →
      ((access (ε := ε) supply).query spec after).1 =
        ((access (ε := ε) supply).query spec before).1 :=
    fun spec hspec => congrArg Except.ok (h.query_eq hspec)
  have hcount : ∀ spec : ReadSpec, spec.stream = stream →
      ((access (ε := ε) supply).count spec after).1 =
        ((access (ε := ε) supply).count spec before).1 :=
    fun spec hspec => congrArg Except.ok (h.count_eq hspec)
  exact {
    lastVersion := congrArg Except.ok h.lastVersion_eq
    toList := fun q hq => ReadQuery.answer_congr hq hquery
    count := fun q hq => ReadQuery.answer_congr hq hcount
    last := fun q => ReadQuery.first_congr rfl hquery
    event := fun q id hq => ReadQuery.first_congr hq fun spec hspec => hquery _ hspec
    events := fun q ids hq => ReadQuery.answer_congr hq fun spec hspec => hquery _ hspec }

end EventLog
