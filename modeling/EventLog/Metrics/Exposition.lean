/-
# The text exposition of metrics

Metrics are shown as families of samples, each family under its name with a line of help
and a line for its kind. Families come in the order of their names and samples in the
order of their labels; a family without samples is not shown. Counters are shown as a
64-bit counter would show them, as a floating-point number.
-/

import EventLog.Decimal.Positional
import EventLog.Metrics.Basic

namespace EventLog.Metrics

structure Sample where
  name : String
  labels : List (String × String)
  value : String

/-- One metric is one line, or for a histogram one group of lines. -/
structure Family where
  name : String
  help : String
  kind : String
  metrics : List (List Sample)

/-- How a character is written inside a label. -/
def escapeLabel (c : Char) : List Char :=
  if c = '\\' then ['\\', '\\'] else if c = '\n' then ['\\', 'n']
  else if c = '"' then ['\\', '"'] else [c]

def labelText (label : String × String) : String :=
  label.1 ++ "=\"" ++ String.ofList (label.2.toList.flatMap escapeLabel) ++ "\""

def Sample.line (s : Sample) : String :=
  let labels := if s.labels.isEmpty then ""
    else "\x7b" ++ String.intercalate "," (s.labels.map labelText) ++ "\x7d"
  s.name ++ labels ++ " " ++ s.value

def Family.lines (f : Family) : List String :=
  ("# HELP " ++ f.name ++ " " ++ f.help) :: ("# TYPE " ++ f.name ++ " " ++ f.kind) ::
    f.metrics.flatten.map Sample.line

/-- A total as a 64-bit counter shows it. -/
def counterText (n : Nat) : String := Decimal.text (UInt64.ofNat n).toFloat

/-- The entries in the order of the aggregate types. -/
def sorted {ν : Type} (d : Dictionary String ν) : List (String × ν) :=
  d.entries.mergeSort fun a b => a.1 ≤ b.1

def typeLabel (type : String) : String × String := ("aggregate_type", type)

def counterFamily (name help : String) (counter : Dictionary String Nat) : Family where
  name := name
  help := help
  kind := "counter"
  metrics := (sorted counter).map fun entry =>
    [⟨name, [typeLabel entry.1], counterText entry.2⟩]

/-- The sums of the beginnings of a list. -/
def cumulative (before : Nat) : List Nat → List Nat
  | [] => []
  | n :: rest => (before + n) :: cumulative (before + n) rest

def histogramSamples (name type : String) (h : Histogram) : List Sample :=
  let bucket (bound : String) (count : Nat) : Sample :=
    ⟨name ++ "_bucket", [typeLabel type, ("le", bound)], counterText count⟩
  List.zipWith (fun bound count => bucket (Decimal.text bound) count)
      Histogram.bounds (cumulative 0 h.buckets) ++
    [bucket "+Inf" h.count,
      ⟨name ++ "_sum", [typeLabel type], Decimal.text h.sum⟩,
      ⟨name ++ "_count", [typeLabel type], counterText h.count⟩]

def histogramFamily (name help : String) (histograms : Dictionary String Histogram) :
    Family where
  name := name
  help := help
  kind := "histogram"
  metrics := (sorted histograms).map fun entry => histogramSamples name entry.1 entry.2

/-- Every family in the order of the names, with or without samples. -/
def allFamilies (m : Metrics) : List Family :=
  [counterFamily "es_aggregates_loaded_total" "Aggregates rebuilt from their stream" m.loaded,
    histogramFamily "es_append_duration_seconds" "Event store append latency" m.appendSeconds,
    counterFamily "es_concurrency_conflicts_total"
      "Appends rejected by the expected-version check" m.conflicts,
    counterFamily "es_events_appended_total" "Total events appended to the store" m.appended,
    { name := "es_events_published_total"
      help := "Envelopes handed to the event bus after a save"
      kind := "counter"
      metrics := [[⟨"es_events_published_total", [], counterText m.published⟩]] }]

/-- The families that have samples. -/
def families (m : Metrics) : List Family :=
  m.allFamilies.filter fun family => !family.metrics.isEmpty

/-- The lines of the exposition. -/
def exposition (m : Metrics) : List String := m.families.flatMap Family.lines

end EventLog.Metrics
