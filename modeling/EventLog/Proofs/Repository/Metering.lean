/-
# Metrics tell what has been done

A repository counts at five places, on different branches of loading and saving. What it ought to
have counted can be told without a look at the counters: every load and every save, be it inside an
execution or not, is a `Deed` with an answer, and a save finds one store and leaves another.
`Metrics.Tells` says that counters are the tallies of a list of deeds, and of nothing else.

One load adds one deed and one save another (`tells_load`, `tells_save`), and an execution is the
deeds of its attempts, one attempt after the other (`tells_execute`).
-/

import EventLog.Order.CommandHandler
import EventLog.Proofs.Repository.Attempts
import EventLog.Proofs.Repository.Saving
import Mathlib.Algebra.Ring.Int.Defs
import Mathlib.Algebra.Ring.Nat

namespace EventLog

/-! ## Sums over a dictionary -/

namespace Dictionary

variable {κ ν : Type} [DecidableEq κ]

/-- A value takes the place of the one that was there, if any. -/
theorem sum_map_put (f : ν → Nat) (k : κ) (v : ν) (entries : List (κ × ν)) :
    ((put k v entries).map fun entry => f entry.2).sum + ((find k entries).map f).getD 0 =
      (entries.map fun entry => f entry.2).sum + f v := by
  induction entries with
  | nil => simp [put, find]
  | cons entry rest ih =>
      by_cases h : entry.1 = k
      · simp only [put, find, if_pos h, List.map_cons, List.sum_cons, Option.map_some,
          Option.getD_some]
        omega
      · simp only [put, find, if_neg h, List.map_cons, List.sum_cons]
        omega

theorem sum_values_insert (f : ν → Nat) (d : Dictionary κ ν) (k : κ) (v : ν) :
    ((d.insert k v).values.map f).sum + ((d.get? k).map f).getD 0 =
      (d.values.map f).sum + f v := by
  simpa [values, insert, get?, List.map_map, Function.comp_def] using
    sum_map_put f k v d.entries

end Dictionary

variable {ε η ω σ κ : Type} [EventType ε]

/-! ## How much a store holds -/

namespace Store

/-- The memberships of all streams. -/
def size (s : Store) : Nat := (s.streams.values.map List.length).sum

omit [EventType ε] in
theorem size_extend (s : Store) (stream : String) (current : Int) (ids : List Uuid) :
    (s.extend stream current ids).size = s.size + ids.length := by
  have hsum := Dictionary.sum_values_insert List.length s.streams stream
    (s.members stream ++ membersFrom s.lastPosition current ids)
  have hmembers : (s.members stream).length =
      ((s.streams.get? stream).map List.length).getD 0 := by
    rw [members]
    cases s.streams.get? stream <;> rfl
  have hsize : (s.extend stream current ids).size = ((s.streams.insert stream
      (s.members stream ++ membersFrom s.lastPosition current ids)).values.map
        List.length).sum := rfl
  rw [List.length_append, length_membersFrom, hmembers] at hsum
  rw [hsize, size]
  omega

/-- An append that succeeds adds a membership for each event of its batch. -/
theorem size_of_append_eq_ok {s after : Store} {draw : Draw} {stream : String}
    {batch returned : List (Envelope ε)} {expected : Option Int}
    (h : s.append draw stream batch expected = .ok (returned, after)) :
    after.size = s.size + batch.length ∧ returned.length = batch.length := by
  obtain ⟨-, -, staged, hstaged, rfl, rfl⟩ := append_eq_ok_iff.mp h
  have hlength := Staged.length_of_ofEnvelopes hstaged
  constructor
  · rw [grown, size_extend, List.length_map, hlength]
    rfl
  · rw [placed, List.length_zipWith, length_membersFrom, List.length_map, Nat.min_self, hlength]

end Store

/-! ## Deeds -/

/-- A load or a save of an aggregate type as it was made: whether the load succeeded; how many
changes were pending when the save was made, how it was answered, and the store before and after
it. -/
inductive Deed where
  | load (type : String) (succeeded : Bool)
  | save (type : String) (pending : Nat) (answer : Except Error Unit) (before after : Store)

namespace Deed

/-- The memberships that this deed has added to the store, if it is a successful save of the
type. -/
def added (type : String) : Deed → Int
  | save saved _ (.ok ()) before after => if saved = type then after.size - before.size else 0
  | _ => 0

/-- It is a save of the type that was answered with a conflict. -/
def conflicted (type : String) : Deed → Bool
  | save saved _ (.error (.conflict ..)) _ _ => saved = type
  | _ => false

/-- It is a successful load of the type. -/
def loaded (type : String) : Deed → Bool
  | load loaded true => loaded = type
  | _ => false

/-- It is a successful save of the type that had something to save. -/
def stored (type : String) : Deed → Bool
  | save saved pending (.ok ()) _ _ => saved = type ∧ pending ≠ 0
  | _ => false

theorem conflicted_save_error (saved : String) (pending : Nat) (e : Error)
    (before after : Store) (type : String) :
    (save saved pending (.error e) before after).conflicted type =
      (e.isConflict && decide (saved = type)) := by
  cases e <;> simp [conflicted, Error.isConflict]

end Deed

namespace Metrics

/-- The counters are the tallies of these deeds. -/
structure Tells (m : Metrics) (deeds : List Deed) : Prop where
  appended : ∀ type, (total m.appended type : Int) = (deeds.map (Deed.added type)).sum
  /-- What was published are the appended events of all types. -/
  published : m.published = m.appended.values.sum
  conflicts : ∀ type, total m.conflicts type = deeds.countP (Deed.conflicted type)
  loaded : ∀ type, total m.loaded type = deeds.countP (Deed.loaded type)
  samples : ∀ type, m.appendSamples type = deeds.countP (Deed.stored type)

theorem sum_values_add (counter : Dictionary String Nat) (type : String) (count : Nat) :
    (add counter type count).values.sum = counter.values.sum + count := by
  have hsum := Dictionary.sum_values_insert id counter type ((counter.get? type).getD 0 + count)
  simp only [List.map_id, Option.map_id, id_eq] at hsum
  rw [add, Dictionary.modify]
  omega

theorem appendSamples_recordAppend (m : Metrics) (type type' : String) (count : Nat)
    (seconds : Float) :
    (m.recordAppend type count seconds).appendSamples type' =
      m.appendSamples type' + if type = type' then 1 else 0 := by
  by_cases h : type = type'
  · subst h
    simp only [appendSamples, recordAppend, Dictionary.modify, Dictionary.get?_insert_self]
    cases m.appendSeconds.get? type <;> simp [Histogram.observe, Histogram.empty]
  · simp [appendSamples, recordAppend, Dictionary.modify, Dictionary.get?_insert, h]

namespace Tells

variable {m m' : Metrics} {deeds : List Deed} {deed : Deed}

theorem empty : Metrics.empty.Tells [] where
  appended _ := rfl
  published := rfl
  conflicts _ := rfl
  loaded _ := rfl
  samples _ := rfl

/-- Counters that have moved by one deed tell one deed more. -/
theorem snoc (h : m.Tells deeds)
    (appended : ∀ type, (total m'.appended type : Int) = total m.appended type + deed.added type)
    (published : m'.published + m.appended.values.sum =
      m.published + m'.appended.values.sum)
    (conflicts : ∀ type, total m'.conflicts type =
      total m.conflicts type + (deed.conflicted type).toNat)
    (loaded : ∀ type, total m'.loaded type = total m.loaded type + (deed.loaded type).toNat)
    (samples : ∀ type, m'.appendSamples type = m.appendSamples type + (deed.stored type).toNat) :
    m'.Tells (deeds ++ [deed]) where
  appended type := by
    rw [appended, h.appended, List.map_append, List.sum_append]
    simp
  published := by
    have := h.published
    omega
  conflicts type := by
    rw [conflicts, h.conflicts, List.countP_append, List.countP_singleton]
    cases deed.conflicted type <;> rfl
  loaded type := by
    rw [loaded, h.loaded, List.countP_append, List.countP_singleton]
    cases deed.loaded type <;> rfl
  samples type := by
    rw [samples, h.samples, List.countP_append, List.countP_singleton]
    cases deed.stored type <;> rfl

/-- A deed that moves no counter. -/
theorem idle (h : m.Tells deeds) (added : ∀ type, deed.added type = 0)
    (conflicted : ∀ type, deed.conflicted type = false)
    (loaded : ∀ type, deed.loaded type = false) (stored : ∀ type, deed.stored type = false) :
    m.Tells (deeds ++ [deed]) := by
  refine h.snoc ?_ rfl ?_ ?_ ?_
  · intro type
    rw [added, Int.add_zero]
  · intro type
    rw [conflicted]
    rfl
  · intro type
    rw [loaded]
    rfl
  · intro type
    rw [stored]
    rfl

end Tells

end Metrics

/-- The world has counters, and they tell these deeds. -/
def World.Tells {β : Type} (w : World β η ω) (deeds : List Deed) : Prop :=
  ∃ m, w.metrics = some m ∧ m.Tells deeds

/-! ## Loads and saves -/

namespace Repository

variable [DecidableEq η] (r : Repository ε Memory η ω) (type : AggregateType ε σ)

/-- This load as a deed. -/
def loadDeed (id : String) (w : World Memory η ω) : Deed :=
  .load type.name (r.load type id w).1.isOk

/-- This save as a deed. -/
def saveDeed (a : Aggregate ε σ) (expected : Option Int) (w : World Memory η ω) : Deed :=
  .save type.name a.changes.length (r.save type a expected w).1 w.backend.store
    (r.save type a expected w).2.2.backend.store

/-- The deeds of one attempt of an execution: a load, and a save if it comes to that. -/
def attemptDeeds (id : String) (action : Aggregate ε σ → κ → Except Error (Aggregate ε σ) × κ)
    (state : World Memory η ω × κ) : List Deed :=
  r.loadDeed type id state.1 ::
    match r.loadOrNew type id state.1 with
    | (.error _, _) => []
    | (.ok aggregate, loaded) =>
      match (action aggregate state.2).1 with
      | .error _ => []
      | .ok changed => [r.saveDeed type changed (some changed.originalVersion) loaded]

section Steps

variable {r} {supply : Nat → Draw} {w : World Memory η ω} {deeds : List Deed}
  (hbackend : r.backend = Memory.backend supply) (h : w.Tells deeds)
include hbackend h

omit [DecidableEq η] in
theorem tells_load (id : String) :
    (r.load type id w).2.Tells (deeds ++ [r.loadDeed type id w]) := by
  obtain ⟨m, hm, htells⟩ := h
  rw [world_load hbackend, loadDeed]
  cases (r.load type id w).1 with
  | error e =>
      exact ⟨m, hm, htells.idle (fun _ => rfl) (fun _ => rfl) (fun _ => rfl) fun _ => rfl⟩
  | ok a =>
      refine ⟨m.recordLoad type.name, congrArg (Option.map _) hm, htells.snoc ?_ rfl ?_ ?_ ?_⟩
      · intro other
        exact (Int.add_zero _).symm
      · exact fun _ => rfl
      · intro other
        rw [Metrics.recordLoad, Metrics.total_add]
        by_cases hother : type.name = other <;>
          simp [Deed.loaded, Except.isOk, Except.toBool, hother]
      · exact fun _ => rfl

theorem tells_save (a : Aggregate ε σ) (expected : Option Int) :
    (r.save type a expected w).2.2.Tells (deeds ++ [r.saveDeed type a expected w]) := by
  obtain ⟨m, hm, htells⟩ := h
  have hcase := saveCase_save hbackend type a expected w
  rw [saveDeed]
  generalize r.save type a expected w = saved at hcase ⊢
  cases hcase with
  | noStream =>
      exact ⟨m, hm, htells.idle (fun _ => rfl) (fun _ => rfl) (fun _ => rfl) fun _ => rfl⟩
  | nothing _ hchanges =>
      refine ⟨m, hm, htells.idle ?_ (fun _ => rfl) (fun _ => rfl) ?_⟩
      · intro other
        simp [Deed.added]
      · intro other
        simp [Deed.stored, hchanges]
  | @refused stream e hstream pending happend =>
      cases hconflict : e.isConflict with
      | false =>
          refine ⟨m, by simpa using hm, htells.idle (fun _ => rfl) ?_ (fun _ => rfl) fun _ => rfl⟩
          intro other
          rw [Deed.conflicted_save_error, hconflict]
          rfl
      | true =>
          refine ⟨m.recordConflict type.name, congrArg (Option.map _) hm,
            htells.snoc ?_ rfl ?_ (fun _ => rfl) fun _ => rfl⟩
          · intro other
            exact (Int.add_zero _).symm
          · intro other
            rw [Deed.conflicted_save_error, hconflict, Metrics.recordConflict, Metrics.total_add]
            by_cases hother : type.name = other <;> simp [hother]
  | @stored stream returned s hstream pending happend seconds =>
      obtain ⟨hsize, hreturned⟩ := Store.size_of_append_eq_ok happend
      rw [outgoing, List.length_map] at hsize hreturned
      refine ⟨_, congrArg (Option.map _) hm, htells.snoc ?_ ?_ (fun _ => rfl) (fun _ => rfl) ?_⟩
      · intro other
        show ((Metrics.total (Metrics.add _ _ _) other : Nat) : Int) = _
        rw [Metrics.total_add, Deed.added]
        dsimp only
        split <;> omega
      · show m.published + returned.length + _ = m.published + (Metrics.add _ _ _).values.sum
        rw [Metrics.sum_values_add]
        omega
      · intro other
        have hsamples := m.appendSamples_recordAppend type.name other a.changes.length seconds
        refine hsamples.trans ?_
        have hlength : a.changes.length ≠ 0 := by
          rwa [Ne, List.length_eq_zero_iff]
        by_cases hother : type.name = other <;> simp [Deed.stored, hother, hlength]

end Steps

/-! ## Executions -/

section Executions

variable {r type} {supply : Nat → Draw} {id : String} {policy : RetryPolicy}
  {action : Aggregate ε σ → κ → Except Error (Aggregate ε σ) × κ} {deeds : List Deed}
  (hbackend : r.backend = Memory.backend supply)
include hbackend

theorem tells_attempt {state : World Memory η ω × κ} (h : state.1.Tells deeds) :
    (r.attempt type id action state).2.1.Tells
      (deeds ++ r.attemptDeeds type id action state) := by
  obtain ⟨w, own⟩ := state
  have hloaded := tells_load type hbackend h id
  rw [← world_loadOrNew] at hloaded
  unfold attempt attemptDeeds
  dsimp only at hloaded ⊢
  rcases hanswer : r.loadOrNew type id w with ⟨e | aggregate, loaded⟩
  · rw [hanswer] at hloaded
    exact hloaded
  · rw [hanswer] at hloaded
    dsimp only
    rcases action aggregate own with ⟨e | changed, after⟩
    · exact hloaded
    · have hsaved := tells_save type hbackend hloaded changed (some changed.originalVersion)
      rw [List.append_assoc] at hsaved
      dsimp only
      rcases hsave : r.save type changed (some changed.originalVersion) loaded with
        ⟨e | done, saved, left⟩
      · rw [hsave] at hsaved
        exact hsaved
      · rw [hsave] at hsaved
        exact hsaved

/-- An execution does what its attempts do, and counts it as they do. -/
theorem tells_execute {w : World Memory η ω} (h : w.Tells deeds) (own : κ) :
    (r.execute type id policy action (w, own)).2.1.Tells (deeds ++
      (r.attempts type id policy action (w, own)).flatMap (r.attemptDeeds type id action)) := by
  -- What has been counted so far are the deeds of the attempts made so far.
  let P : List (World Memory η ω × κ) → World Memory η ω × κ → Prop := fun made state =>
    state.1.Tells (deeds ++ made.flatMap (r.attemptDeeds type id action))
  have hattempted : ∀ made (_ : Nat) state, P made state →
      P (made ++ [state]) (r.attempt type id action state).2 := by
    intro made attempt state hmade
    have hnext : (r.attempt type id action state).2.1.Tells _ := tells_attempt hbackend hmade
    rw [List.append_assoc] at hnext
    simpa [P] using hnext
  have hstart : P [] (w, own) := by simpa [P] using h
  have hkept : P (r.attempts type id policy action (w, own))
      (r.execute type id policy action (w, own)).2 := by
    rw [execute_eq_run, attempts]
    refine RetryPolicy.run_keeps hattempted ?_ hstart
    exact fun made delay state hmade => hmade
  exact hkept

end Executions

end Repository

/-! ## Runs -/

/-- A call to a repository, about an aggregate of any type. -/
inductive RepositoryCall (ε : Type) : Type 1
  | load {σ : Type} (type : AggregateType ε σ) (id : String)
  | loadOrNew {σ : Type} (type : AggregateType ε σ) (id : String)
  | save {σ : Type} (type : AggregateType ε σ) (a : Aggregate ε σ) (expected : Option Int)
  | execute {σ κ : Type} (type : AggregateType ε σ) (id : String) (policy : RetryPolicy)
      (action : Aggregate ε σ → κ → Except Error (Aggregate ε σ) × κ) (own : κ)

namespace Repository

variable [DecidableEq η]

/-- The world after a call. -/
def perform (r : Repository ε Memory η ω) (w : World Memory η ω) :
    RepositoryCall ε → World Memory η ω
  | .load type id => (r.load type id w).2
  | .loadOrNew type id => (r.loadOrNew type id w).2
  | .save type a expected => (r.save type a expected w).2.2
  | .execute type id policy action own => (r.execute type id policy action (w, own)).2.1

/-- The loads and saves that a call makes. Beginning an aggregate that is missing is a load that
has not succeeded, and an execution makes the loads and saves of its attempts. -/
def deedsOf (r : Repository ε Memory η ω) (w : World Memory η ω) : RepositoryCall ε → List Deed
  | .load type id => [r.loadDeed type id w]
  | .loadOrNew type id => [r.loadDeed type id w]
  | .save type a expected => [r.saveDeed type a expected w]
  | .execute type id policy action own =>
    (r.attempts type id policy action (w, own)).flatMap (r.attemptDeeds type id action)

/-- Make calls one after another. -/
def performAll (r : Repository ε Memory η ω) (w : World Memory η ω)
    (calls : List (RepositoryCall ε)) : World Memory η ω :=
  calls.foldl r.perform w

/-- All loads and saves of these calls, in order. -/
def deeds (r : Repository ε Memory η ω) : World Memory η ω → List (RepositoryCall ε) → List Deed
  | _, [] => []
  | w, call :: rest => r.deedsOf w call ++ r.deeds (r.perform w call) rest

theorem tells_perform {r : Repository ε Memory η ω} {supply : Nat → Draw}
    (hbackend : r.backend = Memory.backend supply) {w : World Memory η ω} {made : List Deed}
    (h : w.Tells made) (call : RepositoryCall ε) :
    (r.perform w call).Tells (made ++ r.deedsOf w call) := by
  cases call with
  | load type id => exact tells_load type hbackend h id
  | loadOrNew type id =>
      rw [perform, world_loadOrNew]
      exact tells_load type hbackend h id
  | save type a expected => exact tells_save type hbackend h a expected
  | execute type id policy action own => exact tells_execute hbackend h own

theorem tells_performAll {r : Repository ε Memory η ω} {supply : Nat → Draw}
    (hbackend : r.backend = Memory.backend supply) (calls : List (RepositoryCall ε))
    {w : World Memory η ω} {made : List Deed} (h : w.Tells made) :
    (r.performAll w calls).Tells (made ++ r.deeds w calls) := by
  induction calls generalizing w made with
  | nil => simpa [performAll, deeds] using h
  | cons call rest ih =>
      have hrest := ih (tells_perform hbackend h call)
      rw [List.append_assoc] at hrest
      exact hrest

/-- Counters that begin with nothing tell, after any loads, saves and executions over the log in
memory, what these have done. For each aggregate type they show the memberships that successful
saves have added to the store, the saves that were answered with a conflict, the loads that have
succeeded, inside executions and outside, and one timing for each successful save of pending
changes; and what was published are the appended events of all types together. -/
theorem metrics_tell {r : Repository ε Memory η ω} {supply : Nat → Draw}
    (hbackend : r.backend = Memory.backend supply) (w : World Memory η ω)
    (calls : List (RepositoryCall ε)) :
    let start := { w with metrics := some .empty }
    ∃ m, (r.performAll start calls).metrics = some m ∧ m.Tells (r.deeds start calls) := by
  intro start
  have hstart : start.Tells [] := ⟨.empty, rfl, .empty⟩
  exact tells_performAll hbackend calls hstart

/-- An order is saved, a copy of it comes too late, and of two orders one is found. -/
theorem metrics_tell_late_copy :
    let order : Order OrderEvent :=
      ⟨"7", 0, 1, [.fresh "7" (.typed (.cancelled ⟨none, none⟩))], .initial⟩
    let type := Order.aggregateType OrderEvent
    let r : Repository OrderEvent Memory Nat Unit :=
      ⟨Memory.backend countingSupply, ⟨.ofList [("Order", fun _ id => id)]⟩,
        Order.catalog OrderEvent, fun _ _ listeners => (listeners, []), none⟩
    let calls : List (RepositoryCall OrderEvent) :=
      [.save type order (some 0), .save type order (some 0), .load type "7", .load type "8"]
    ∃ m, (r.performAll ⟨.empty, .empty, (), some .empty, 0⟩ calls).metrics = some m ∧
      Metrics.total m.appended "Order" = 1 ∧ Metrics.total m.conflicts "Order" = 1 ∧
      Metrics.total m.loaded "Order" = 1 ∧ m.appendSamples "Order" = 1 := by
  intro order type r calls
  obtain ⟨m, hm, htells⟩ := metrics_tell (r := r) rfl ⟨.empty, .empty, (), none, 0⟩ calls
  refine ⟨m, hm, ?_, ?_, ?_, ?_⟩
  · have hadded : (Metrics.total m.appended "Order" : Int) = 1 :=
      (htells.appended "Order").trans (by decide +kernel)
    exact_mod_cast hadded
  · exact (htells.conflicts "Order").trans (by decide +kernel)
  · exact (htells.loaded "Order").trans (by decide +kernel)
  · exact (htells.samples "Order").trans (by decide +kernel)

end Repository

end EventLog
