/-
# Who is called

A handler is subscribed to a name or it is not: asking twice changes nothing, and no subscription
takes another one away. What is published calls the handlers of its name, each once.

As long as the handlers that are called subscribe nobody (`Reaction.Quiet`), publishing is a walk
through a list of calls that is known beforehand. `Bus.calls` is that list, and what one handler
finds in it are the envelopes under the names it is subscribed to, each once and in the order in
which they were published (`Bus.filter_calls`).
-/

import EventLog.Bus
import Mathlib.Data.List.Nodup

namespace EventLog

variable {ε η ω : Type}

/-- Handlers that are called subscribe nobody. -/
def Reaction.Quiet (react : Reaction ε η ω) : Prop :=
  ∀ handler envelope listeners, (react handler envelope listeners).2 = []

namespace Bus

variable [DecidableEq η] {bus : Bus η} {handler : η} {name : String}

/-! ## Subscribing -/

theorem mem_handlersOf_subscribeTo {other : η} {target : String} :
    handler ∈ (bus.subscribeTo other target).handlersOf name ↔
      handler ∈ bus.handlersOf name ∨ other = handler ∧ target = name := by
  rw [handlersOf_subscribeTo]
  by_cases htarget : target = name
  · subst htarget
    by_cases hmem : other ∈ bus.handlersOf target
    · rw [if_neg fun h => h.2 hmem]
      refine (or_iff_left_of_imp ?_).symm
      rintro ⟨rfl, -⟩
      exact hmem
    · rw [if_pos ⟨rfl, hmem⟩, List.mem_append, List.mem_singleton]
      simp [eq_comm]
  · rw [if_neg fun h => htarget h.1]
    simp [htarget]

theorem mem_handlersOf_subscribe {other : η} {names : List String} :
    handler ∈ (bus.subscribe other names).handlersOf name ↔
      handler ∈ bus.handlersOf name ∨ other = handler ∧ name ∈ names := by
  induction names generalizing bus with
  | nil => simp [subscribe]
  | cons target rest ih =>
      refine ih.trans ?_
      rw [mem_handlersOf_subscribeTo, or_assoc, ← and_or_left, List.mem_cons, eq_comm (a := name)]

/-- Who subscribes to a name is subscribed to it. -/
theorem mem_handlersOf_of_mem {names : List String} (hname : name ∈ names) (bus : Bus η)
    (handler : η) : handler ∈ (bus.subscribe handler names).handlersOf name :=
  mem_handlersOf_subscribe.mpr (.inr ⟨rfl, hname⟩)

/-- Subscribe one handler after another. -/
def subscribeAll (bus : Bus η) (wanted : List (η × List String)) : Bus η :=
  wanted.foldl (fun bus want => bus.subscribe want.1 want.2) bus

/-- A handler is subscribed to what it was and to what it has asked for. -/
theorem mem_handlersOf_subscribeAll {wanted : List (η × List String)} :
    handler ∈ (bus.subscribeAll wanted).handlersOf name ↔
      handler ∈ bus.handlersOf name ∨ ∃ want ∈ wanted, want.1 = handler ∧ name ∈ want.2 := by
  induction wanted generalizing bus with
  | nil => simp [subscribeAll]
  | cons want rest ih =>
      refine ih.trans ?_
      rw [mem_handlersOf_subscribe, or_assoc, List.exists_mem_cons_iff]

/-- Nobody is subscribed to a name twice. -/
def Distinct (bus : Bus η) : Prop := ∀ name, (bus.handlersOf name).Nodup

omit [DecidableEq η] in
theorem distinct_empty : (empty : Bus η).Distinct := fun _ => List.nodup_nil

namespace Distinct

theorem subscribeTo (h : bus.Distinct) (handler : η) (target : String) :
    (bus.subscribeTo handler target).Distinct := by
  intro name
  rw [handlersOf_subscribeTo]
  split
  · rename_i hnew
    rw [← List.concat_eq_append]
    exact (h name).concat (hnew.1 ▸ hnew.2)
  · exact h name

theorem subscribe (h : bus.Distinct) (handler : η) (names : List String) :
    (bus.subscribe handler names).Distinct := by
  induction names generalizing bus with
  | nil => exact h
  | cons target rest ih => exact ih (h.subscribeTo handler target)

theorem subscribeAll (h : bus.Distinct) (wanted : List (η × List String)) :
    (bus.subscribeAll wanted).Distinct := by
  induction wanted generalizing bus with
  | nil => exact h
  | cons want rest ih => exact ih (h.subscribe want.1 want.2)

end Distinct

/-! ## Calling -/

section Calling

variable {react : Reaction ε η ω}

/-- Make these calls one after another: the listeners afterwards. -/
def deliver (react : Reaction ε η ω) (calls : List (η × Envelope ε)) (listeners : ω) : ω :=
  calls.foldl (fun listeners call => (react call.1 call.2 listeners).1) listeners

theorem call_of_quiet (quiet : react.Quiet) (envelope : Envelope ε) (listeners : ω)
    (handler : η) :
    call react envelope (bus, listeners) handler = (bus, (react handler envelope listeners).1) := by
  have hnobody := quiet handler envelope listeners
  unfold call
  dsimp only
  rw [hnobody]
  rfl

theorem foldl_call_of_quiet (quiet : react.Quiet) (envelope : Envelope ε) (handlers : List η)
    (listeners : ω) :
    handlers.foldl (call react envelope) (bus, listeners) =
      (bus, deliver react (handlers.map fun handler => (handler, envelope)) listeners) := by
  induction handlers generalizing listeners with
  | nil => rfl
  | cons handler rest ih =>
      rw [List.foldl_cons, call_of_quiet quiet, ih]
      rfl

variable [EventType ε]

omit [DecidableEq η] in
/-- The calls that publishing these envelopes makes, in order. -/
def calls (bus : Bus η) (envelopes : List (Envelope ε)) : List (η × Envelope ε) :=
  envelopes.flatMap fun envelope =>
    (bus.handlersOf envelope.eventName).map fun handler => (handler, envelope)

/-- Where handlers subscribe nobody, publishing makes the calls that are due and leaves the
subscriptions alone. -/
theorem publishAll_of_quiet (quiet : react.Quiet) (envelopes : List (Envelope ε))
    (listeners : ω) :
    publishAll react envelopes (bus, listeners) =
      (bus, deliver react (bus.calls envelopes) listeners) := by
  induction envelopes generalizing listeners with
  | nil => rfl
  | cons envelope rest ih =>
      rw [publishAll, List.foldl_cons, publish, foldl_call_of_quiet quiet]
      refine (ih _).trans ?_
      rw [calls, calls, List.flatMap_cons, deliver, deliver, deliver, List.foldl_append]

/-- Of one envelope a handler is told once if it is subscribed, and not at all if not. -/
theorem filter_calls_singleton (h : bus.Distinct) (handler : η) (envelope : Envelope ε) :
    ((bus.calls [envelope]).filter (·.1 = handler)).map Prod.snd =
      if handler ∈ bus.handlersOf envelope.eventName then [envelope] else [] := by
  have hdistinct := h envelope.eventName
  rw [calls, List.flatMap_singleton, List.filter_map, List.map_map]
  generalize bus.handlersOf envelope.eventName = handlers at hdistinct ⊢
  show (handlers.filter (· = handler)).map _ = _
  rw [List.filter_eq, hdistinct.count]
  split <;> rfl

/-- What a handler is called with are the envelopes under the names it is subscribed to, each of
them once and in order. -/
theorem filter_calls (h : bus.Distinct) (handler : η) (envelopes : List (Envelope ε)) :
    ((bus.calls envelopes).filter (·.1 = handler)).map Prod.snd =
      envelopes.filter fun envelope => handler ∈ bus.handlersOf envelope.eventName := by
  induction envelopes with
  | nil => rfl
  | cons envelope rest ih =>
      have hcons : bus.calls (envelope :: rest) = bus.calls [envelope] ++ bus.calls rest := by
        simp [calls]
      rw [hcons, List.filter_append, List.map_append, filter_calls_singleton h, ih,
        List.filter_cons]
      split <;> simp_all

end Calling

end Bus

end EventLog
