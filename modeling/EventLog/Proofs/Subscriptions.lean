/-
# Handlers that subscribe handlers

While an event is published its handlers are called one after another, and each of them may
subscribe others, under any names and any number of times. So the subscriptions change while they
are used, and what is said of a publication has to be said of the moments inside it too.

A run is followed here job by job. A `Moment` has the bus, what is left to be done and what has
been done; the next moment is one job further, and a job is as much as is done without letting
go of the subscriptions: one handler is subscribed, one handler is called, or the handlers of a
name are looked up. What holds at every moment is then proved for one job (`Faithful.next`), and
that the jobs of a call do what putting it to the bus does is `reaches_dealt`.
-/

import EventLog.Order.Event
import EventLog.Proofs.Bus
import Mathlib.Data.Finset.Card
import Mathlib.Logic.Function.Iterate

namespace EventLog

variable {ε η ω : Type}

/-- What is put to a bus. -/
inductive BusCall (ε η : Type) where
  | subscribe (handler : η) (names : List String)
  | publish (envelope : Envelope ε)

/-- Put a call to the bus. -/
def BusCall.put [DecidableEq η] [EventType ε] (react : Reaction ε η ω) (state : Bus η × ω) :
    BusCall ε η → Bus η × ω
  | subscribe handler names => (state.1.subscribe handler names, state.2)
  | publish envelope => Bus.publish react envelope state

namespace Bus

/-! ## Job by job -/

/-- What is to be done at a bus. -/
inductive Job (ε η : Type) where
  | subscribe (handler : η) (names : List String)
  | publish (envelope : Envelope ε)
  | call (handler : η) (envelope : Envelope ε)

/-- What has been done there. -/
inductive Deed (ε η : Type) where
  | subscribed (handler : η) (names : List String)
  | called (handler : η) (envelope : Envelope ε)

/-- Who was called with what. -/
def Deed.call? : Deed ε η → Option (η × Envelope ε)
  | called handler envelope => some (handler, envelope)
  | subscribed _ _ => none

/-- Who was subscribed to a name, as often as that was done. -/
def addedTo (name : String) (deeds : List (Deed ε η)) : List η :=
  deeds.filterMap fun
    | .subscribed handler names => if name ∈ names then some handler else none
    | .called _ _ => none

theorem mem_addedTo {name : String} {deeds : List (Deed ε η)} {handler : η} :
    handler ∈ addedTo name deeds ↔ ∃ names, .subscribed handler names ∈ deeds ∧ name ∈ names := by
  rw [addedTo, List.mem_filterMap]
  constructor
  · rintro ⟨deed, hdeed, hadded⟩
    cases deed with
    | called => cases hadded
    | subscribed other names =>
        obtain ⟨hname, heq⟩ := Option.ite_none_right_eq_some.mp hadded
        cases heq
        exact ⟨names, hdeed, hname⟩
  · rintro ⟨names, hdeed, hname⟩
    exact ⟨_, hdeed, if_pos hname⟩

/-- A bus in the middle of a run. -/
structure Moment (ε η ω : Type) where
  bus : Bus η
  listeners : ω
  jobs : List (Job ε η)
  deeds : List (Deed ε η)

namespace Moment

def state (moment : Moment ε η ω) : Bus η × ω := (moment.bus, moment.listeners)

/-- Who has been called with what so far. -/
def called (moment : Moment ε η ω) : List (η × Envelope ε) := moment.deeds.filterMap Deed.call?

end Moment

end Bus

/-- The job that a call is. -/
def BusCall.job : BusCall ε η → Bus.Job ε η
  | subscribe handler names => .subscribe handler names
  | publish envelope => .publish envelope

namespace Bus.Moment

variable [DecidableEq η] [EventType ε]

/-- A bus without handlers to which these calls are put. -/
def begun (calls : List (BusCall ε η)) (listeners : ω) : Moment ε η ω :=
  ⟨.empty, listeners, calls.map BusCall.job, []⟩

/-- Do the first job. The handlers to be called are those that are subscribed when publishing
begins, and what a handler subscribes is subscribed before the next one is called. -/
def next (react : Reaction ε η ω) : Moment ε η ω → Moment ε η ω
  | ⟨bus, listeners, .subscribe handler names :: jobs, deeds⟩ =>
    ⟨bus.subscribe handler names, listeners, jobs, deeds ++ [.subscribed handler names]⟩
  | ⟨bus, listeners, .publish envelope :: jobs, deeds⟩ =>
    ⟨bus, listeners,
      (bus.handlersOf envelope.eventName).map (fun handler => .call handler envelope) ++ jobs,
      deeds⟩
  | ⟨bus, listeners, .call handler envelope :: jobs, deeds⟩ =>
    let (listeners, wanted) := react handler envelope listeners
    ⟨bus, listeners, wanted.map (fun want => .subscribe want.1 want.2) ++ jobs,
      deeds ++ [.called handler envelope]⟩
  | ⟨bus, listeners, [], deeds⟩ => ⟨bus, listeners, [], deeds⟩

/-! ## At every moment -/

/-- The handlers of a name are those that were subscribed to it, each once. -/
structure Faithful (moment : Moment ε η ω) : Prop where
  distinct : moment.bus.Distinct
  mem_iff : ∀ handler name,
    handler ∈ moment.bus.handlersOf name ↔ handler ∈ addedTo name moment.deeds

variable {react : Reaction ε η ω} {moment : Moment ε η ω}

omit [DecidableEq η] [EventType ε] in
theorem faithful_begun (calls : List (BusCall ε η)) (listeners : ω) :
    (begun calls listeners).Faithful := ⟨distinct_empty, fun _ _ => Iff.rfl⟩

omit [EventType ε] in
/-- There are as many handlers of a name as different ones have been subscribed to it. -/
theorem Faithful.handlerCount_eq (h : moment.Faithful) (name : String) :
    moment.bus.handlerCount name = (addedTo name moment.deeds).toFinset.card := by
  have hsame : (moment.bus.handlersOf name).toFinset = (addedTo name moment.deeds).toFinset := by
    ext handler
    rw [List.mem_toFinset, List.mem_toFinset, h.mem_iff]
  rw [← hsame, List.toFinset_card_of_nodup (h.distinct name), handlerCount]

theorem Faithful.next (h : moment.Faithful) : (moment.next react).Faithful := by
  obtain ⟨bus, listeners, jobs, deeds⟩ := moment
  obtain ⟨hdistinct, hmem⟩ := h
  cases jobs with
  | nil => exact ⟨hdistinct, hmem⟩
  | cons job jobs =>
      cases job with
      | subscribe other names =>
          refine ⟨hdistinct.subscribe other names, fun handler name => ?_⟩
          show handler ∈ (bus.subscribe other names).handlersOf name ↔ _
          rw [mem_handlersOf_subscribe, hmem, mem_addedTo, mem_addedTo]
          simp [Moment.next, or_and_right, exists_or, eq_comm]
      | publish envelope => exact ⟨hdistinct, hmem⟩
      | call other envelope =>
          refine ⟨hdistinct, fun handler name => ?_⟩
          show handler ∈ bus.handlersOf name ↔ _
          rw [hmem, mem_addedTo, mem_addedTo]
          simp [Moment.next]

theorem faithful_iterate (h : moment.Faithful) (n : Nat) : ((next react)^[n] moment).Faithful := by
  induction n with
  | zero => exact h
  | succ n ih =>
      rw [Function.iterate_succ_apply']
      exact ih.next

theorem deeds_next (moment : Moment ε η ω) : moment.deeds <+: (moment.next react).deeds := by
  obtain ⟨bus, listeners, jobs, deeds⟩ := moment
  cases jobs with
  | nil => exact List.prefix_rfl
  | cons job jobs =>
      cases job with
      | subscribe => exact List.prefix_append _ _
      | publish => exact List.prefix_rfl
      | call => exact List.prefix_append _ _

/-- What has been done stays done. -/
theorem deeds_iterate (moment : Moment ε η ω) (n : Nat) :
    moment.deeds <+: ((next react)^[n] moment).deeds := by
  induction n with
  | zero => exact List.prefix_rfl
  | succ n ih =>
      rw [Function.iterate_succ_apply']
      exact ih.trans (deeds_next _)

/-! ## A whole publication -/

/-- Some number of jobs leads from one moment to the other. -/
def Reaches (react : Reaction ε η ω) (first last : Moment ε η ω) : Prop :=
  ∃ n, (next react)^[n] first = last

theorem Reaches.refl (moment : Moment ε η ω) : Reaches react moment moment := ⟨0, rfl⟩

theorem Reaches.trans {first middle last : Moment ε η ω} (h : Reaches react first middle)
    (h' : Reaches react middle last) : Reaches react first last := by
  obtain ⟨n, rfl⟩ := h
  obtain ⟨k, rfl⟩ := h'
  exact ⟨k + n, Function.iterate_add_apply _ _ _ _⟩

theorem Reaches.of_next {last : Moment ε η ω} (h : Reaches react (moment.next react) last) :
    Reaches react moment last :=
  .trans ⟨1, rfl⟩ h

variable (react) (bus : Bus η) (listeners : ω) (jobs : List (Job ε η)) (deeds : List (Deed ε η))

theorem reaches_wanted (wanted : List (η × List String)) :
    Reaches react ⟨bus, listeners, wanted.map (fun want => .subscribe want.1 want.2) ++ jobs, deeds⟩
      ⟨bus.subscribeAll wanted, listeners, jobs,
        deeds ++ wanted.map fun want => .subscribed want.1 want.2⟩ := by
  induction wanted generalizing bus deeds with
  | nil =>
      rw [List.map_nil, List.map_nil, List.append_nil]
      exact .refl _
  | cons want rest ih =>
      have hrest := ih (bus.subscribe want.1 want.2) (deeds ++ [.subscribed want.1 want.2])
      rw [List.append_assoc] at hrest
      exact .of_next hrest

/-- Calling handlers one after another. -/
theorem reaches_called (envelope : Envelope ε) (handlers : List η) :
    let after := handlers.foldl (Bus.call react envelope) (bus, listeners)
    ∃ made, made.filterMap Deed.call? = handlers.map (fun handler => (handler, envelope)) ∧
      Reaches react
        ⟨bus, listeners, handlers.map (fun handler => .call handler envelope) ++ jobs, deeds⟩
        ⟨after.1, after.2, jobs, deeds ++ made⟩ := by
  induction handlers generalizing bus listeners deeds with
  | nil => exact ⟨[], rfl, by rw [List.append_nil]; exact .refl _⟩
  | cons handler rest ih =>
      let wanted := (react handler envelope listeners).2
      have hhandler := reaches_wanted react bus (react handler envelope listeners).1
        (rest.map (fun handler => .call handler envelope) ++ jobs)
        (deeds ++ [.called handler envelope]) wanted
      obtain ⟨made, hmade, hrest⟩ := ih (bus.subscribeAll wanted)
        (react handler envelope listeners).1
        (deeds ++ [.called handler envelope] ++
          wanted.map fun want => .subscribed want.1 want.2)
      refine ⟨.called handler envelope ::
        (wanted.map fun want => .subscribed want.1 want.2) ++ made, ?_, .of_next ?_⟩
      · have hnobody : (wanted.map fun want => Deed.subscribed (ε := ε) want.1 want.2).filterMap
            Deed.call? = [] := by
          rw [List.filterMap_map]
          exact List.filterMap_eq_nil_iff.mpr fun _ _ => rfl
        show (handler, envelope) :: (_ ++ made).filterMap Deed.call? = _
        rw [List.filterMap_append, hnobody, hmade]
        rfl
      · have hall := hhandler.trans hrest
        rw [List.append_assoc, List.append_assoc] at hall
        exact hall

theorem reaches_publish (envelope : Envelope ε) :
    let after := Bus.publish react envelope (bus, listeners)
    ∃ made, made.filterMap Deed.call? =
        (bus.handlersOf envelope.eventName).map (fun handler => (handler, envelope)) ∧
      Reaches react ⟨bus, listeners, .publish envelope :: jobs, deeds⟩
        ⟨after.1, after.2, jobs, deeds ++ made⟩ := by
  obtain ⟨made, hmade, hreaches⟩ :=
    reaches_called react bus listeners jobs deeds envelope (bus.handlersOf envelope.eventName)
  exact ⟨made, hmade, .of_next hreaches⟩

/-- What has been done about a call between two moments. -/
def Dealt (first last : Moment ε η ω) : BusCall ε η → Prop
  | .subscribe handler names => last.deeds = first.deeds ++ [.subscribed handler names]
  | .publish envelope =>
    last.called = first.called ++
      (first.bus.handlersOf envelope.eventName).map fun handler => (handler, envelope)

/-- The jobs of a call do to the bus what putting it there does. -/
theorem reaches_dealt (call : BusCall ε η) :
    let first : Moment ε η ω := ⟨bus, listeners, call.job :: jobs, deeds⟩
    ∃ last : Moment ε η ω, Reaches react first last ∧ last.jobs = jobs ∧
      last.state = call.put react first.state ∧ Dealt first last call := by
  intro first
  cases call with
  | subscribe handler names => exact ⟨_, .of_next (.refl _), rfl, rfl, rfl⟩
  | publish envelope =>
      obtain ⟨made, hmade, hreaches⟩ := reaches_publish react bus listeners jobs deeds envelope
      refine ⟨_, hreaches, rfl, rfl, ?_⟩
      rw [Dealt, called, called, List.filterMap_append, hmade]

/-- One call is dealt with after the other, each from some moment on. -/
theorem exists_turns (calls : List (BusCall ε η)) (first : Moment ε η ω)
    (hjobs : first.jobs = calls.map BusCall.job) :
    let moment := fun n => (next react)^[n] first
    ∃ turn : Nat → Nat, turn 0 = 0 ∧ Monotone turn ∧ ∀ i,
      (moment (turn i)).jobs = (calls.drop i).map BusCall.job ∧
      (moment (turn i)).state = (calls.take i).foldl (BusCall.put react) first.state ∧
      ∀ call, calls[i]? = some call → Dealt (moment (turn i)) (moment (turn (i + 1))) call := by
  intro moment
  induction calls generalizing first with
  | nil =>
      refine ⟨fun _ => 0, rfl, fun _ _ _ => le_rfl, fun i => ⟨?_, ?_, nofun⟩⟩
      · rw [List.drop_nil]
        exact hjobs
      · rw [List.take_nil]
        rfl
  | cons call rest ih =>
      obtain ⟨bus, listeners, jobs, deeds⟩ := first
      obtain rfl : jobs = call.job :: rest.map BusCall.job := hjobs
      obtain ⟨last, ⟨k, hlast⟩, hrest, hstate, hdealt⟩ :=
        reaches_dealt react bus listeners (rest.map BusCall.job) deeds call
      obtain ⟨turn, hzero, hturn, hall⟩ := ih last hrest
      have hshift : ∀ n, moment (n + k) = (next react)^[n] last := by
        intro n
        rw [← hlast]
        exact Function.iterate_add_apply _ _ _ _
      refine ⟨fun i => i.casesOn 0 fun i => turn i + k, rfl, monotone_nat_of_le_succ fun i => ?_,
        fun i => ?_⟩
      · cases i with
        | zero => exact Nat.zero_le _
        | succ i => exact Nat.add_le_add_right (hturn (Nat.le_succ i)) k
      · cases i with
        | zero =>
            refine ⟨rfl, rfl, fun other hother => ?_⟩
            obtain rfl : call = other := Option.some.inj hother
            show Dealt _ (moment (turn 0 + k)) call
            rw [hshift, hzero]
            exact hdealt
        | succ i =>
            obtain ⟨hjobs, hput, hcalls⟩ := hall i
            rw [hstate] at hput
            show (moment (turn i + k)).jobs = _ ∧ (moment (turn i + k)).state = _ ∧
              ∀ other, rest[i]? = some other →
                Dealt (moment (turn i + k)) (moment (turn (i + 1) + k)) other
            rw [hshift, hshift]
            exact ⟨hjobs, hput, hcalls⟩

end Bus.Moment

/-! ## Who is called -/

/-- The same handlers, and everybody who is called with something is written down. -/
def Reaction.noting (react : Reaction ε η ω) : Reaction ε η (ω × List (η × Envelope ε)) :=
  fun handler envelope (listeners, noted) =>
    let (listeners, wanted) := react handler envelope listeners
    ((listeners, noted ++ [(handler, envelope)]), wanted)

namespace Bus

variable [DecidableEq η] (react : Reaction ε η ω)

theorem foldl_call_noting (envelope : Envelope ε) (handlers : List η) (state : Bus η × ω)
    (noted : List (η × Envelope ε)) :
    handlers.foldl (call react.noting envelope) (state.1, state.2, noted) =
      let after := handlers.foldl (call react envelope) state
      (after.1, after.2, noted ++ handlers.map fun handler => (handler, envelope)) := by
  induction handlers generalizing state noted with
  | nil => simp
  | cons handler rest ih =>
      refine (ih (call react envelope state handler) (noted ++ [(handler, envelope)])).trans ?_
      rw [List.append_assoc]
      rfl

variable [EventType ε]

/-- Publishing calls the handlers that its name has when it begins, one after another. -/
theorem publish_noting (envelope : Envelope ε) (state : Bus η × ω)
    (noted : List (η × Envelope ε)) :
    publish react.noting envelope (state.1, state.2, noted) =
      let after := publish react envelope state
      (after.1, after.2, noted ++
        (state.1.handlersOf envelope.eventName).map fun handler => (handler, envelope)) :=
  foldl_call_noting react envelope _ state noted

/-- Put any calls to a bus that has no handlers yet, where the handlers may subscribe anybody to
anything while they are called.

At every moment, between two calls of handlers too, the handlers of a name are those that have
been subscribed to it by then, each of them once, so there are as many as are different. What has
been subscribed stays so.

The calls are dealt with one after another, as they are put. A publication calls the handlers that
had been subscribed to its name when it began, each of them once, with what is published, and
nobody else: who is subscribed meanwhile is called by the publications that come after. -/
theorem set_of_subscribers (calls : List (BusCall ε η)) (listeners : ω) :
    let moment := fun n => (Moment.next react)^[n] (.begun calls listeners)
    (∀ n name, ((moment n).bus.handlersOf name).Nodup ∧
      (∀ handler, handler ∈ (moment n).bus.handlersOf name ↔
        ∃ names, .subscribed handler names ∈ (moment n).deeds ∧ name ∈ names) ∧
      (moment n).bus.handlerCount name = (addedTo name (moment n).deeds).toFinset.card) ∧
    (∀ n k, n ≤ k → (moment n).deeds <+: (moment k).deeds) ∧
    ∃ turn : Nat → Nat, turn 0 = 0 ∧ Monotone turn ∧
      (∀ i, (moment (turn i)).jobs = (calls.drop i).map BusCall.job ∧
        (moment (turn i)).state =
          (calls.take i).foldl (BusCall.put react) (.empty, listeners)) ∧
      (∀ i handler names, calls[i]? = some (.subscribe handler names) →
        (moment (turn (i + 1))).deeds =
          (moment (turn i)).deeds ++ [.subscribed handler names]) ∧
      ∀ i envelope, calls[i]? = some (.publish envelope) → ∃ handlers : List η,
        handlers.Nodup ∧
        (∀ handler, handler ∈ handlers ↔ ∃ names,
          .subscribed handler names ∈ (moment (turn i)).deeds ∧ envelope.eventName ∈ names) ∧
        (moment (turn (i + 1))).called =
          (moment (turn i)).called ++ handlers.map (fun handler => (handler, envelope)) ∧
        ∀ noted, (publish react.noting envelope
            ((moment (turn i)).bus, (moment (turn i)).listeners, noted)).2.2 =
          noted ++ handlers.map fun handler => (handler, envelope) := by
  intro moment
  have hfaithful : ∀ n, (moment n).Faithful := Moment.faithful_iterate (Moment.faithful_begun _ _)
  have hmem : ∀ n name handler, handler ∈ (moment n).bus.handlersOf name ↔
      ∃ names, .subscribed handler names ∈ (moment n).deeds ∧ name ∈ names := by
    intro n name handler
    rw [(hfaithful n).mem_iff, mem_addedTo]
  obtain ⟨turn, hzero, hturn, hall⟩ :=
    Moment.exists_turns react calls (.begun calls listeners) rfl
  refine ⟨fun n name =>
      ⟨(hfaithful n).distinct name, hmem n name, (hfaithful n).handlerCount_eq name⟩,
    fun n k hle => ?_, turn, hzero, hturn, fun i => ⟨(hall i).1, (hall i).2.1⟩,
    fun i handler names hcall => (hall i).2.2 _ hcall, fun i envelope hcall => ?_⟩
  · obtain ⟨extra, rfl⟩ := Nat.exists_eq_add_of_le' hle
    show _ <+: ((Moment.next react)^[extra + n] _).deeds
    rw [Function.iterate_add_apply]
    exact Moment.deeds_iterate _ extra
  · refine ⟨(moment (turn i)).bus.handlersOf envelope.eventName, (hfaithful _).distinct _, hmem _ _,
      (hall i).2.2 _ hcall, fun noted => ?_⟩
    exact congrArg (·.2.2) (publish_noting react envelope (moment (turn i)).state noted)

/-- Handler 0 subscribes another and itself whenever it is called, in one go and to names that
come twice. -/
theorem set_of_subscribers_subscribing :
    let react : Reaction OrderEvent Nat Unit := fun handler _ listeners =>
      (listeners, if handler = 0 then [(1, ["A", "A", "B"]), (0, ["A"])] else [])
    let a : Envelope OrderEvent := .fresh "order-1" (.raw "A" "1")
    let b : Envelope OrderEvent := .fresh "order-1" (.raw "B" "2")
    let moment := fun n => (Moment.next react)^[n]
      (.begun [.subscribe 0 ["A", "A"], .publish a, .publish b, .publish a] ())
    ((moment 3).bus.handlerCount "A" = 1 ∧ (moment 4).bus.handlerCount "A" = 2 ∧
      (moment 4).bus.handlerCount "B" = 1) ∧
    ((moment 12).jobs.length = 0 ∧ (moment 12).called = [(0, a), (1, b), (0, a), (1, a)]) ∧
    ∃ n k, (moment k).called = (moment n).called ++ [(0, a)] ∧
      ∀ noted, (publish react.noting a
        ((moment n).bus, (moment n).listeners, noted)).2.2 = noted ++ [(0, a)] := by
  intro react a b moment
  obtain ⟨hsets, -, turn, hzero, -, -, hsubscribed, hpublished⟩ := set_of_subscribers react
    [.subscribe 0 ["A", "A"], .publish a, .publish b, .publish a] ()
  refine ⟨⟨(hsets 3 "A").2.2, (hsets 4 "A").2.2, (hsets 4 "B").2.2⟩, ⟨rfl, rfl⟩,
    turn 1, turn 2, ?_⟩
  have hdeeds := hsubscribed 0 0 ["A", "A"] rfl
  rw [hzero] at hdeeds
  obtain ⟨handlers, hnodup, hmem, hcalled, hnoted⟩ := hpublished 1 a rfl
  have honly : handlers = [0] := by
    refine List.perm_singleton.mp
      ((List.perm_ext_iff_of_nodup hnodup (List.nodup_singleton 0)).mpr fun handler => ?_)
    rw [hmem, hdeeds, List.mem_singleton]
    constructor
    · rintro ⟨names, hadded, -⟩
      cases List.mem_singleton.mp hadded
      rfl
    · rintro rfl
      exact ⟨["A", "A"], List.mem_singleton_self _, .head _⟩
  rw [honly] at hcalled hnoted
  exact ⟨hcalled, hnoted⟩

end Bus

end EventLog
