/-
# Names of streams

Which stream an aggregate lives in is decided by a rule for its type. Rules are given for
several types at once, all or none: if one of them has a rule already, none of them gets
the new one.
-/

import EventLog.Dictionary
import EventLog.Error
import EventLog.Text.LowerCase
import EventLog.Text.Quoted

namespace EventLog

/-- From the type and the identifier of an aggregate to its stream. -/
abbrev StreamRule := String → String → String

/-- The lower-case type, a hash sign, and the identifier. -/
def typeHashId : StreamRule := fun aggregateType id =>
  Text.lowerCase aggregateType ++ "#" ++ id

/-- Rules under the aggregate types they are for. -/
structure StreamNames where
  rules : Dictionary String StreamRule

namespace StreamNames

def empty : StreamNames := ⟨.empty⟩

/-- Use `rule` for all these types; refused at the first type that has a rule. -/
def register (names : StreamNames) (rule : StreamRule) (types : List String) :
    Except Error StreamNames :=
  match types.find? names.rules.contains with
  | some taken => .error (.alreadyRegistered taken)
  | none => .ok ⟨types.foldl (fun rules type => rules.insert type rule) names.rules⟩

/-- The stream of an aggregate. -/
def streamOf (names : StreamNames) (aggregateType id : String) : Except Error String :=
  match names.rules.get? aggregateType with
  | some rule => .ok (rule aggregateType id)
  | none => .error (.noStreamName aggregateType)

/-- The types that have a rule, for diagnostics. -/
def describe (names : StreamNames) : String :=
  "StreamNamer \x7b aggregate_types: [" ++
    String.intercalate ", " (names.rules.keys.map Text.quoted) ++ "] \x7d"

end StreamNames

end EventLog
