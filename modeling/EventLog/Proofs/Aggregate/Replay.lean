/-
# Replay goes as far as it can

History is applied envelope by envelope, and each envelope is either applied, which moves both
versions to the next number, or refused, which ends the replay where it stands. So a replay can be
broken off and taken up again anywhere (`Aggregate.rebuild_append`).

Which of the two an envelope meets is for the transition table to say. A table is what was
registered, one registration after the other, and under a name it is the last that counts
(`Transitions.change?_ofList`): an event is given to this one, and refused if it is not of the
kind that the transition takes. Earlier registrations of the name are as if they had never been.
-/

import EventLog.Proofs.Aggregate.Applying
import Mathlib.Data.List.Induction

namespace EventLog

variable {ε σ : Type}

/-! ## Tables -/

/-- The transition registered last under a name. -/
def lastUnder (name : String) (registrations : List (String × Transition ε σ)) :
    Option (Transition ε σ) :=
  (registrations.reverse.find? fun registration => registration.1 = name).map Prod.snd

theorem lastUnder_concat (name : String) (registrations : List (String × Transition ε σ))
    (registration : String × Transition ε σ) :
    lastUnder name (registrations ++ [registration]) =
      if registration.1 = name then some registration.2 else lastUnder name registrations := by
  rw [lastUnder, List.reverse_concat, List.find?_cons]
  by_cases hname : registration.1 = name
  · rw [if_pos hname, decide_eq_true hname, Option.map_some]
  · rw [if_neg hname, decide_eq_false hname, lastUnder]

theorem lastUnder_eq_none_iff {name : String} {registrations : List (String × Transition ε σ)} :
    lastUnder name registrations = none ↔ name ∉ registrations.map Prod.fst := by
  rw [lastUnder, Option.map_eq_none_iff, List.find?_eq_none]
  constructor
  · intro h hmem
    obtain ⟨registration, hregistration, hname⟩ := List.mem_map.mp hmem
    exact h registration (List.mem_reverse.mpr hregistration) (decide_eq_true hname)
  · intro h registration hregistration hname
    exact h (List.mem_map.mpr
      ⟨registration, List.mem_reverse.mp hregistration, of_decide_eq_true hname⟩)

theorem mem_of_lastUnder {name : String} {registrations : List (String × Transition ε σ)}
    {transition : Transition ε σ} (h : lastUnder name registrations = some transition) :
    (name, transition) ∈ registrations := by
  obtain ⟨registration, hfound, rfl⟩ := Option.map_eq_some_iff.mp h
  have hname := List.find?_some hfound
  have hmem := List.mem_reverse.mp (List.mem_of_find?_eq_some hfound)
  rwa [← of_decide_eq_true hname]

namespace Transitions

/-- The table of these registrations, made in order. -/
def ofList (aggregateType : String) (registrations : List (String × Transition ε σ)) :
    Transitions ε σ :=
  registrations.foldl (fun t registration => t.on registration.1 registration.2)
    (.empty aggregateType)

theorem ofList_concat (aggregateType : String) (registrations : List (String × Transition ε σ))
    (registration : String × Transition ε σ) :
    ofList aggregateType (registrations ++ [registration]) =
      (ofList aggregateType registrations).on registration.1 registration.2 :=
  List.foldl_append

theorem aggregateType_ofList (aggregateType : String)
    (registrations : List (String × Transition ε σ)) :
    (ofList aggregateType registrations).aggregateType = aggregateType := by
  induction registrations using List.reverseRecOn with
  | nil => rfl
  | append_singleton registrations registration ih => rwa [ofList_concat]

theorem get?_ofList (aggregateType : String) (registrations : List (String × Transition ε σ))
    (name : String) :
    (ofList aggregateType registrations).entries.get? name = lastUnder name registrations := by
  induction registrations using List.reverseRecOn with
  | nil => rfl
  | append_singleton registrations registration ih =>
      rw [ofList_concat, on, Dictionary.get?_insert, lastUnder_concat, ih]

variable [EventType ε]

/-- The last transition registered for the name of an event decides what becomes of it. -/
theorem change?_ofList (aggregateType : String) (registrations : List (String × Transition ε σ))
    (event : Event ε) :
    (ofList aggregateType registrations).change? event =
      match lastUnder event.name registrations with
      | none =>
          .error (.unexpected (aggregateType ++ " has no transition for event " ++ event.name))
      | some transition =>
        match (event.data? ε).bind transition with
        | none =>
          .error (.unexpected
            (aggregateType ++ " received undecoded payload for event " ++ event.name))
        | some change => .ok change := by
  rw [change?, get?_ofList, noTransition, aggregateType_ofList]
  cases lastUnder event.name registrations with
  | none => rfl
  | some transition =>
      dsimp only [undecoded]
      rw [aggregateType_ofList]
      cases event with
      | raw name payload => rfl
      | typed data =>
          have hdata : (Event.typed data : Event ε).data? ε = some data := rfl
          rw [hdata, Option.bind_some]
          dsimp only
          cases transition data <;> rfl

end Transitions

/-! ## Histories -/

namespace Aggregate

variable [EventType ε] {type : AggregateType ε σ} {a : Aggregate ε σ} {envelope : Envelope ε}
  {rest : List (Envelope ε)}

/-- An envelope that is refused ends the replay. -/
theorem rebuild_cons_of_error {e : Error}
    (h : type.transitions.change? envelope.event = .error e) :
    a.rebuild type (envelope :: rest) = (.error e, a) := by
  rw [rebuild, replayOne, apply, Transitions.apply, h]
  rfl

/-- One that is applied moves both versions. -/
theorem rebuild_cons_of_ok {change : σ → σ}
    (h : type.transitions.change? envelope.event = .ok change) :
    a.rebuild type (envelope :: rest) = Aggregate.rebuild type
      ⟨a.id, a.currentVersion + 1, a.currentVersion + 1, a.changes, change a.state⟩ rest := by
  rw [rebuild, replayOne, apply, Transitions.apply, h]
  rfl

/-- A replay can be broken off anywhere and taken up again, unless it has ended by then. -/
theorem rebuild_append (a : Aggregate ε σ) (earlier later : List (Envelope ε)) :
    a.rebuild type (earlier ++ later) =
      match a.rebuild type earlier with
      | (.ok (), reached) => reached.rebuild type later
      | (.error e, reached) => (.error e, reached) := by
  induction earlier generalizing a with
  | nil => rfl
  | cons envelope rest ih =>
      rw [List.cons_append]
      cases hchange : type.transitions.change? envelope.event with
      | error e => rw [rebuild_cons_of_error hchange, rebuild_cons_of_error hchange]
      | ok change => rw [rebuild_cons_of_ok hchange, rebuild_cons_of_ok hchange, ih]

end Aggregate

end EventLog
