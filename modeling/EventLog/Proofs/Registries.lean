/-
# The first registration stands

Rules for streams and blank events are both found under names, and a name is given away once.
What is asked for a name that is taken is refused, and a refusal changes nothing at all, also
where several names were asked for and others among them were free.

So what a registry holds after any run of calls can be read off the calls. The catalog holds
under each name the blank of the first call for it, whatever became of the later ones. For the
streams it takes more to say which call that is, since the first one that lists a type may have
been refused for another type of its list. It is the calls that were granted that count, and of
these at most one lists the type (`StreamNames.rulesOf_askAll`).
-/

import EventLog.EventCatalog
import EventLog.Proofs.Except
import EventLog.Proofs.StreamNames

namespace EventLog

/-! ## Rules for streams -/

/-- A call that asks for one rule to be used for several types. -/
structure StreamRegistration where
  rule : StreamRule
  types : List String

/-- The calls among these that list a type. -/
def listing (type : String) (calls : List StreamRegistration) : List StreamRegistration :=
  calls.filter fun call => type ∈ call.types

namespace StreamNames

/-- Make a call: the answer, and the names afterwards. -/
def ask (names : StreamNames) (call : StreamRegistration) : Except Error Unit × StreamNames :=
  (names.register call.rule call.types).settle names

/-- The names after these calls. -/
def askAll (names : StreamNames) (calls : List StreamRegistration) : StreamNames :=
  calls.foldl (fun names call => (names.ask call).2) names

/-- The calls among these that are not refused. -/
def granted (names : StreamNames) : List StreamRegistration → List StreamRegistration
  | [] => []
  | call :: rest =>
    match names.register call.rule call.types with
    | .error _ => names.granted rest
    | .ok after => call :: after.granted rest

variable {names after : StreamNames} {past : List StreamRegistration}

/-- The rule of a type is that of the one call that lists it, and there is none without one. -/
def RulesOf (past : List StreamRegistration) (names : StreamNames) : Prop :=
  ∀ type, (listing type past).map StreamRegistration.rule = (names.rules.get? type).toList

theorem rulesOf_empty : RulesOf [] empty := fun _ => rfl

namespace RulesOf

theorem get?_eq_none_iff (h : RulesOf past names) {type : String} :
    names.rules.get? type = none ↔ listing type past = [] := by
  rw [← Option.toList_eq_nil_iff, ← h type, List.map_eq_nil_iff]

theorem contains_iff (h : RulesOf past names) {type : String} :
    names.rules.contains type = true ↔ listing type past ≠ [] := by
  rw [Dictionary.contains, Option.isSome_iff_ne_none, Ne, h.get?_eq_none_iff]

/-- A call is refused for the first type of its list that a call lists already, and granted if
there is none. -/
theorem ask_cases (h : RulesOf past names) (call : StreamRegistration) :
    (∃ before taken after, call.types = before ++ taken :: after ∧
        (∀ type ∈ before, listing type past = []) ∧ listing taken past ≠ [] ∧
        names.ask call = (.error (.alreadyRegistered taken), names)) ∨
      (∀ type ∈ call.types, listing type past = []) ∧ (names.ask call).1 = .ok () := by
  rw [StreamNames.ask, StreamNames.register]
  cases htaken : call.types.find? names.rules.contains with
  | some taken =>
      obtain ⟨hcontains, before, after, htypes, hbefore⟩ := List.find?_eq_some_iff_append.mp htaken
      refine .inl ⟨before, taken, after, htypes, fun type htype => ?_, h.contains_iff.mp hcontains,
        rfl⟩
      exact not_not.mp fun hlisted => by simpa [h.contains_iff.mpr hlisted] using hbefore type htype
  | none =>
      refine .inr ⟨fun type htype => not_not.mp fun hlisted => ?_, rfl⟩
      exact List.find?_eq_none.mp htaken type htype (h.contains_iff.mpr hlisted)

theorem register (h : RulesOf past names) {call : StreamRegistration}
    (hcall : names.register call.rule call.types = .ok after) :
    RulesOf (past ++ [call]) after := by
  intro type
  obtain ⟨hnew, hafter⟩ := get?_of_register_eq_ok hcall type
  rw [listing, List.filter_append, List.map_append, ← listing, h type, hafter]
  by_cases hmem : type ∈ call.types
  · simp [hmem, hnew hmem]
  · simp [hmem]

theorem askAll (h : RulesOf past names) (calls : List StreamRegistration) :
    RulesOf (past ++ names.granted calls) (names.askAll calls) := by
  induction calls generalizing past names with
  | nil => rwa [granted, List.append_nil]
  | cons call rest ih =>
      rw [granted, StreamNames.askAll, List.foldl_cons, ask]
      cases hcall : names.register call.rule call.types with
      | error e => exact ih h
      | ok after =>
          rw [List.append_cons]
          exact ih (h.register hcall)

/-- A type is named by the rule of the one call that lists it, or there is no such call. -/
theorem streamOf_cases (h : RulesOf past names) (type : String) :
    (listing type past = [] ∧ ∀ id, names.streamOf type id = .error (.noStreamName type)) ∨
      ∃ call, listing type past = [call] ∧
        ∀ id, names.streamOf type id = .ok (call.rule type id) := by
  have hrules := h type
  cases hrule : names.rules.get? type with
  | none =>
      rw [hrule] at hrules
      refine .inl ⟨List.map_eq_nil_iff.mp hrules, fun id => ?_⟩
      rw [streamOf, hrule]
  | some rule =>
      rw [hrule] at hrules
      obtain ⟨call, hcall, rfl⟩ := List.map_eq_singleton_iff.mp hrules
      exact .inr ⟨call, hcall, fun id => streamOf_eq_ok hrule id⟩

end RulesOf

/-- After any calls, each type has the rule of the granted call that lists it. -/
theorem rulesOf_askAll (calls : List StreamRegistration) :
    RulesOf (empty.granted calls) (empty.askAll calls) :=
  rulesOf_empty.askAll calls

end StreamNames

/-! ## Blank events -/

/-- A call that asks for events to be decoded into a blank, under its own name or another. -/
inductive EventRegistration (ε : Type) where
  | own (blank : Event ε)
  | under (name : String) (blank : Event ε)

variable {ε : Type} [EventType ε]

namespace EventRegistration

def blank : EventRegistration ε → Event ε
  | own blank => blank
  | under _ blank => blank

/-- The name that is asked for. -/
def name : EventRegistration ε → String
  | own blank => blank.name
  | under name _ => name

end EventRegistration

namespace EventCatalog

/-- Make a call: the answer, and the catalog afterwards. -/
def ask (c : EventCatalog ε) : EventRegistration ε → Except Error Unit × EventCatalog ε
  | .own blank => (c.register blank).settle c
  | .under name blank => (c.registerAs name blank).settle c

/-- The catalog after these calls. -/
def askAll (c : EventCatalog ε) (calls : List (EventRegistration ε)) : EventCatalog ε :=
  calls.foldl (fun c call => (c.ask call).2) c

variable {c : EventCatalog ε} {past : List (EventRegistration ε)}

/-- Under each name is the blank of the first call for it. -/
def BlanksOf (past : List (EventRegistration ε)) (c : EventCatalog ε) : Prop :=
  ∀ name, c.get? name = (past.find? fun call => call.name = name).map EventRegistration.blank

theorem blanksOf_empty : BlanksOf [] (empty : EventCatalog ε) := fun _ => rfl

theorem ask_eq (c : EventCatalog ε) (call : EventRegistration ε) :
    c.ask call = (c.registerAs call.name call.blank).settle c := by
  cases call <;> rfl

namespace BlanksOf

theorem isRegistered_eq (h : BlanksOf past c) (name : String) :
    c.isRegistered name = (past.find? fun call => call.name = name).isSome := by
  rw [isRegistered, Dictionary.contains, ← get?, h name, Option.isSome_map]

/-- A call for a name that was asked for before is refused, and any other is granted. -/
theorem ask_cases (h : BlanksOf past c) (call : EventRegistration ε) :
    ((∃ earlier ∈ past, earlier.name = call.name) ∧
        c.ask call = (.error (.alreadyRegistered call.name), c)) ∨
      (∀ earlier ∈ past, earlier.name ≠ call.name) ∧
        c.ask call = (.ok (), ⟨c.blanks.insert call.name call.blank⟩) := by
  rw [ask_eq, registerAs]
  by_cases htaken : c.isRegistered call.name = true
  · rw [if_pos htaken]
    refine .inl ⟨?_, rfl⟩
    rw [h.isRegistered_eq, List.find?_isSome] at htaken
    simpa using htaken
  · rw [if_neg htaken]
    refine .inr ⟨fun earlier hearlier hname => htaken ?_, rfl⟩
    rw [h.isRegistered_eq, List.find?_isSome]
    exact ⟨earlier, hearlier, decide_eq_true hname⟩

theorem ask (h : BlanksOf past c) (call : EventRegistration ε) :
    BlanksOf (past ++ [call]) (c.ask call).2 := by
  intro name
  rw [List.find?_append]
  obtain ⟨⟨earlier, hearlier, htaken⟩, hask⟩ | ⟨hnew, hask⟩ := h.ask_cases call
  · rw [hask, h name]
    by_cases hname : call.name = name
    · -- The name is found before the last call is looked at.
      have hfound : (past.find? fun call => call.name = name).isSome = true := by
        rw [List.find?_isSome]
        exact ⟨earlier, hearlier, decide_eq_true (htaken.trans hname)⟩
      rw [Option.or_of_isSome hfound]
    · rw [List.find?_singleton, if_neg (by simpa using hname), Option.or_none]
  · rw [hask, get?, Dictionary.get?_insert]
    by_cases hname : call.name = name
    · have hnone : past.find? (fun call => call.name = name) = none :=
        List.find?_eq_none.mpr fun earlier hearlier =>
          by simpa using hname ▸ hnew earlier hearlier
      rw [if_pos hname, hnone, List.find?_singleton, if_pos (by simpa using hname)]
      rfl
    · rw [if_neg hname, List.find?_singleton, if_neg (by simpa using hname), Option.or_none]
      exact h name

theorem askAll (h : BlanksOf past c) (calls : List (EventRegistration ε)) :
    BlanksOf (past ++ calls) (c.askAll calls) := by
  induction calls generalizing past c with
  | nil => rwa [List.append_nil]
  | cons call rest ih =>
      rw [EventCatalog.askAll, List.foldl_cons, List.append_cons]
      exact ih (h.ask call)

/-- What is stored under a name is decoded into the blank of the first call for the name. -/
theorem decode_eq (h : BlanksOf past c) (name payload : String) :
    c.decode name payload =
      match past.find? fun call => call.name = name with
      | some first => first.blank.unmarshal payload
      | none => .error (.unknownEventType name) := by
  rw [decode, h name]
  cases past.find? fun call => call.name = name <;> rfl

end BlanksOf

/-- After any calls, the first one for a name decides. -/
theorem blanksOf_askAll (calls : List (EventRegistration ε)) :
    BlanksOf calls (empty.askAll calls) :=
  blanksOf_empty.askAll calls

end EventCatalog

/-! ## Both registries -/

/-- Take any calls for stream rules, each for any types, and any calls for blank events.

A further call for a stream rule is answered by the granted ones: it is refused for the first type
of its list that one of them lists, and granted if there is none. If it is refused, the names are
what they were. Each type is listed by one granted call, and then its streams are named by the
rule of this call, or by none, and then they have no name.

A further call for a blank event is refused, and the catalog is what it was, if there was a call
for the same name before; otherwise it is granted. A name has the blank of the first call for it,
and stored events of the name are decoded into this blank. A name that was never asked for is not
registered, and its events are not known. -/
theorem first_registration_stands (calls : List StreamRegistration)
    (entries : List (EventRegistration ε)) :
    let names := StreamNames.empty.askAll calls
    let granted := StreamNames.empty.granted calls
    let catalog : EventCatalog ε := EventCatalog.empty.askAll entries
    (∀ call,
      (∃ before taken after, call.types = before ++ taken :: after ∧
        (∀ type ∈ before, listing type granted = []) ∧ listing taken granted ≠ [] ∧
        names.ask call = (.error (.alreadyRegistered taken), names)) ∨
      (∀ type ∈ call.types, listing type granted = []) ∧ (names.ask call).1 = .ok ()) ∧
    (∀ type,
      (listing type granted = [] ∧ ∀ id, names.streamOf type id = .error (.noStreamName type)) ∨
      ∃ call, listing type granted = [call] ∧
        ∀ id, names.streamOf type id = .ok (call.rule type id)) ∧
    (∀ call : EventRegistration ε,
      ((∃ earlier ∈ entries, earlier.name = call.name) ∧
        catalog.ask call = (.error (.alreadyRegistered call.name), catalog)) ∨
      (∀ earlier ∈ entries, earlier.name ≠ call.name) ∧ (catalog.ask call).1 = .ok ()) ∧
    ∀ name,
      let first := entries.find? fun call => call.name = name
      catalog.get? name = first.map EventRegistration.blank ∧
      catalog.isRegistered name = first.isSome ∧
      ∀ payload, catalog.decode name payload =
        match first with
        | some call => call.blank.unmarshal payload
        | none => .error (.unknownEventType name) := by
  intro names granted catalog
  have hrules : StreamNames.RulesOf granted names := StreamNames.rulesOf_askAll calls
  have hblanks : EventCatalog.BlanksOf entries catalog := EventCatalog.blanksOf_askAll entries
  refine ⟨hrules.ask_cases, hrules.streamOf_cases, fun call => ?_, fun name => ⟨hblanks name, ?_,
    hblanks.decode_eq name⟩⟩
  · obtain hrefused | ⟨hnew, hask⟩ := hblanks.ask_cases call
    · exact .inl hrefused
    · exact .inr ⟨hnew, by rw [hask]⟩
  · exact hblanks.isRegistered_eq name

/-- A call for two types, of which the second is taken, leaves the first one free for the next. -/
example :
    let calls : List StreamRegistration :=
      [⟨fun type id => id ++ type, ["Order"]⟩, ⟨fun _ _ => "log", ["Customer", "Order"]⟩,
        ⟨fun type _ => type, ["Customer", "Customer"]⟩]
    let names := StreamNames.empty.askAll calls
    (StreamNames.empty.granted calls).map StreamRegistration.types =
        [["Order"], ["Customer", "Customer"]] ∧
      names.streamOf "Order" "7" = .ok "7Order" ∧ names.streamOf "Customer" "7" = .ok "Customer" :=
  ⟨rfl, rfl, rfl⟩

end EventLog
