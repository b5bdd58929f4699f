/-
# Metrics

Counters of what a repository has done, by aggregate type, and how long its appends took.
Totals are kept exactly; how a total is shown is a matter of the exposition.
-/

import EventLog.Dictionary

namespace EventLog

/-- Samples sorted into the buckets below given bounds. -/
structure Histogram where
  /-- For each bound, the samples that exceed the bound before it but not this one. -/
  buckets : List Nat
  sum : Float
  count : Nat

namespace Histogram

/-- Upper bounds of the buckets for append times, in seconds. -/
def bounds : List Float := [0.001, 0.005, 0.01, 0.05, 0.1, 0.5, 1.0, 5.0]

def empty : Histogram := ⟨bounds.map fun _ => 0, 0.0, 0⟩

/-- Count a sample in the first bucket whose bound it does not exceed. -/
def tally (sample : Float) : List Float → List Nat → List Nat
  | bound :: bounds, n :: counts =>
    if sample ≤ bound then (n + 1) :: counts else n :: tally sample bounds counts
  | _, counts => counts

def observe (h : Histogram) (sample : Float) : Histogram :=
  ⟨tally sample bounds h.buckets, h.sum + sample, h.count + 1⟩

end Histogram

structure Metrics where
  appended : Dictionary String Nat
  conflicts : Dictionary String Nat
  loaded : Dictionary String Nat
  published : Nat
  appendSeconds : Dictionary String Histogram

namespace Metrics

def empty : Metrics := ⟨.empty, .empty, .empty, 0, .empty⟩

instance : Inhabited Metrics := ⟨empty⟩

/-- Add to the counter of one aggregate type. -/
def add (counter : Dictionary String Nat) (type : String) (count : Nat) :
    Dictionary String Nat :=
  counter.modify type fun old => old.getD 0 + count

/-- The counter of one aggregate type. -/
def total (counter : Dictionary String Nat) (type : String) : Nat := (counter.get? type).getD 0

/-- `count` events were stored in one append that took `seconds`. -/
def recordAppend (m : Metrics) (type : String) (count : Nat) (seconds : Float) : Metrics :=
  { m with
    appended := add m.appended type count
    appendSeconds := m.appendSeconds.modify type fun old => (old.getD .empty).observe seconds }

def recordConflict (m : Metrics) (type : String) : Metrics :=
  { m with conflicts := add m.conflicts type 1 }

def recordLoad (m : Metrics) (type : String) : Metrics :=
  { m with loaded := add m.loaded type 1 }

def recordPublished (m : Metrics) (count : Nat) : Metrics :=
  { m with published := m.published + count }

/-- How many appends of a type have been timed. -/
def appendSamples (m : Metrics) (type : String) : Nat :=
  ((m.appendSeconds.get? type).map Histogram.count).getD 0

theorem total_add (counter : Dictionary String Nat) (type type' : String) (count : Nat) :
    total (add counter type count) type' =
      total counter type' + if type = type' then count else 0 := by
  by_cases h : type = type'
  · subst h; simp [total, add, Dictionary.modify]
  · simp [total, add, Dictionary.modify, Dictionary.get?_insert, h]

end Metrics

end EventLog
