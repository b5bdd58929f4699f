/-
# Records in JSON

A record with named fields is an object or, shorter, the array of its fields in order. In
an object the members may come in any order, and members that are no field are passed
over whatever they hold, so that payloads written by a later version can still be read. A
field given twice is refused, and so is a member whose name denotes no text.
-/

import EventLog.Json.Basic
import EventLog.Timestamp.Reader
import EventLog.Uuid

namespace EventLog.Json

/-- The members of an object whose names all denote texts. -/
def named? (members : List (Option String × Json)) : Option (List (String × Json)) :=
  members.mapM fun (name, value) => name.map fun name => (name, value)

/-- The value of the first member of this name. -/
def member? (name : String) : List (String × Json) → Option Json
  | [] => none
  | (other, value) :: rest => if other = name then some value else member? name rest

/-- How often a name occurs. -/
def occurrences (name : String) (members : List (String × Json)) : Nat :=
  members.countP fun member => member.1 = name

/-- The values of the fields with these names, in order; `none` inside for an absent one.
An array has to give every field. -/
def fields? (names : List String) : Json → Option (List (Option Json))
  | .array items => if items.length = names.length then some (items.map some) else none
  | .object members => do
    let members ← named? members
    if names.all fun name => occurrences name members ≤ 1 then
      some (names.map fun name => member? name members)
    else none
  | _ => none

/-- A field that has to be there. -/
def required {α : Type} (decode : Json → Option α) (field : Option Json) : Option α :=
  field.bind decode

/-- A field that may be absent or `null`. -/
def optional {α : Type} (decode : Json → Option α) : Option Json → Option (Option α)
  | none => some none
  | some .null => some none
  | some value => (decode value).map some

def asText : Json → Option String
  | .string value => value
  | _ => none

/-- An integer literal within bounds. -/
def asInt (low high : Int) : Json → Option Int
  | .int value => if low ≤ value ∧ value ≤ high then some value else none
  | _ => none

def asInt32 (v : Json) : Option Int32 :=
  (asInt Int32.minValue.toInt Int32.maxValue.toInt v).map Int32.ofInt

def asInt64 (v : Json) : Option Int64 :=
  (asInt Int64.minValue.toInt Int64.maxValue.toInt v).map Int64.ofInt

def asList {α : Type} (decode : Json → Option α) : Json → Option (List α)
  | .array items => items.mapM decode
  | _ => none

def asUuid (v : Json) : Option Uuid := (asText v).bind Uuid.ofText?

def asTimestamp (v : Json) : Option Timestamp := (asText v).bind Timestamp.ofText?

/-- A map from texts to texts: every member counts, and a later one replaces an earlier
one of the same name. -/
def asTextMap : Json → Option (List (String × String))
  | .object members => do
    (← named? members).mapM fun (name, value) => (asText value).map fun value => (name, value)
  | _ => none

end EventLog.Json
