/-
# What the registrations of orders come to

An application makes orders known by registering their events with a catalog and the rule
for their streams with the stream names. Either can hold other entries already; a
registration that is not refused adds its own, and no later one takes them away.

A catalog that has been told of the order events decodes what was written for one of them,
whatever is in it (`payload_round_trip`).
-/

import EventLog.Proofs.Order.Handling
import EventLog.Proofs.StreamNames

namespace EventLog

variable {ε : Type} [EventType ε]

/-! ## The catalog -/

namespace EventCatalog

/-- A registration that is not refused is of a new name. -/
theorem register_eq_ok_iff {c after : EventCatalog ε} {blank : Event ε} :
    c.register blank = .ok after ↔
      c.get? blank.name = none ∧ after = ⟨c.blanks.insert blank.name blank⟩ := by
  rw [register, registerAs, isRegistered, Dictionary.contains, get?]
  cases c.blanks.get? blank.name <;> simp [eq_comm]

/-- What is in the catalog stays there. -/
theorem get?_registerAll_of_get? {c : EventCatalog ε} {name : String} {blank : Event ε}
    (h : c.get? name = some blank) (blanks : List (Event ε)) :
    (c.registerAll blanks).2.get? name = some blank := by
  induction blanks generalizing c with
  | nil => exact h
  | cons first rest ih =>
      rw [registerAll]
      cases hfirst : c.register first with
      | error e => exact h
      | ok after =>
          obtain ⟨hnew, rfl⟩ := register_eq_ok_iff.mp hfirst
          refine ih ?_
          have hne : first.name ≠ name := by
            rintro rfl
            rw [hnew] at h
            cases h
          rw [get?, Dictionary.get?_insert, if_neg hne]
          exact h

/-- What has been registered is found under its name. -/
theorem get?_registerAll_of_mem {c : EventCatalog ε} {blanks : List (Event ε)}
    (h : (c.registerAll blanks).1 = .ok ()) {blank : Event ε} (hmem : blank ∈ blanks) :
    (c.registerAll blanks).2.get? blank.name = some blank := by
  induction blanks generalizing c with
  | nil => cases hmem
  | cons first rest ih =>
      rw [registerAll] at h ⊢
      cases hfirst : c.register first with
      | error e =>
          rw [hfirst] at h
          cases h
      | ok after =>
          rw [hfirst] at h
          rcases List.mem_cons.mp hmem with rfl | hmem
          · obtain ⟨-, rfl⟩ := register_eq_ok_iff.mp hfirst
            refine get?_registerAll_of_get? ?_ rest
            rw [get?, Dictionary.get?_insert_self]
          · exact ih h hmem

end EventCatalog

/-! ## Orders -/

namespace Order

variable [Includes OrderEvent ε]

/-- A catalog with which the order events have been registered knows them. -/
theorem knows_of_registerAll {before catalog : EventCatalog ε}
    (h : before.registerAll (blankEvents ε) = (.ok (), catalog)) : Knows catalog := by
  intro blank hblank
  have hname : (Event.typed (Includes.inject blank) : Event ε).name = blank.name :=
    Includes.name_inject blank
  have hregistered : (before.registerAll (blankEvents ε)).1 = .ok () := by rw [h]
  have hfound := EventCatalog.get?_registerAll_of_mem hregistered
    (List.mem_map.mpr ⟨blank, hblank, rfl⟩)
  rwa [h, hname] at hfound

/-- It goes on knowing them whatever is registered afterwards. -/
theorem Knows.registerAll {catalog : EventCatalog ε} (h : Knows catalog)
    (later : List (Event ε)) : Knows (catalog.registerAll later).2 :=
  fun blank hblank => EventCatalog.get?_registerAll_of_get? (h blank hblank) later

/-! ### Payloads -/

/-- Every order event is written to a text, whatever is in it, and is read from this text into
any event of its kind. A catalog with which the order events have been registered, be it after
other events or before, decodes the text to the event itself, which is then written to the same
text. Of what an event may hold only an instant can be beyond reading, and only in a year far
outside the four digits of a date. -/
theorem payload_round_trip {before catalog : EventCatalog ε}
    (hregistered : before.registerAll (blankEvents ε) = (.ok (), catalog))
    (later : List (Event ε)) {e : OrderEvent} (hreadable : e.Readable) :
    ∃ payload, (Event.typed (Includes.inject e) : Event ε).marshal = .ok payload ∧
      (∀ blank : OrderEvent, blank.name = e.name →
        (Event.typed (Includes.inject blank) : Event ε).unmarshal payload =
          .ok (.typed (Includes.inject e))) ∧
      ∃ decoded, (catalog.registerAll later).2.decode e.name payload = .ok decoded ∧
        decoded.name = e.name ∧ decoded.data? OrderEvent = some e ∧
        decoded.marshal = .ok payload := by
  have hmarshal : (Event.typed (Includes.inject e) : Event ε).marshal = .ok e.toJson.text :=
    Includes.marshal_inject e
  refine ⟨e.toJson.text, hmarshal, fun blank hname => ?_, .typed (Includes.inject e), ?_,
    Includes.name_inject e, Event.data?_typed_inject e, hmarshal⟩
  · rw [Event.unmarshal, Includes.unmarshal_inject, OrderEvent.unmarshal_toJson hname hreadable]
    rfl
  · exact ((knows_of_registerAll hregistered).registerAll later).decode hreadable

/-- A shipment in the last nanosecond that four digits of a year can date, under a tracking
number that has to be escaped, among events that other applications registered. -/
theorem payload_round_trip_last_nanosecond :
    let last : Timestamp :=
      ⟨⟨9999, 12, 31, by decide, by decide⟩,
        ⟨23, 59, 59, 999999999, by decide, by decide, by decide, by decide⟩⟩
    let e : OrderEvent := .shipped ⟨"\"1Z\"\\9\t\u0007é", "", last⟩
    let note : Event OrderEvent := .raw "Noted" ""
    e.Readable ∧
      ∃ catalog payload, (EventCatalog.empty.registerAll [note]).2.registerAll
          (blankEvents OrderEvent) = (.ok (), catalog) ∧
        EventType.marshal e = .ok payload ∧
        (catalog.registerAll [note]).2.decode "OrderShipped" payload = .ok (.typed e) := by
  intro last e note
  have hyear : last.date.inRange = true := by decide
  have hreadable : e.Readable := hyear
  have hregistered : (EventCatalog.empty.registerAll [note]).2.registerAll
      (blankEvents OrderEvent) = (.ok (), _) := rfl
  obtain ⟨payload, hmarshal, -, decoded, hdecode, -, hdata, -⟩ :=
    payload_round_trip hregistered [note] hreadable
  refine ⟨hreadable, _, payload, hregistered, hmarshal, ?_⟩
  cases decoded with
  | typed event =>
      cases hdata
      exact hdecode
  | raw name text => cases hdata

/-! ### Streams -/

/-- The stream of an order. -/
def streamName (id : String) : String := "order#" ++ id

theorem streamName_ne_empty (id : String) : streamName id ≠ "" := by
  intro h
  have hlength := congrArg String.length h
  simp [streamName] at hlength

theorem streamName_inj {id other : String} : streamName id = streamName other ↔ id = other :=
  String.append_right_inj "order#"

/-- Under the standard rule the stream of an order has this name. -/
theorem streamOf_of_rule {names : StreamNames} (h : names.rules.get? typeName = some typeHashId)
    (id : String) : names.streamOf typeName id = .ok (streamName id) := by
  have hlower : Text.lowerCase typeName ++ "#" = "order#" := by decide +kernel
  rw [StreamNames.streamOf_eq_ok h, typeHashId, hlower]
  rfl

/-- The order events have been registered with the catalog and the order stream with the
names, whatever had been registered before. -/
structure Registered (catalog : EventCatalog ε) (names : StreamNames) : Prop where
  events : ∃ before : EventCatalog ε, before.registerAll (blankEvents ε) = (.ok (), catalog)
  stream : ∃ before, registerStream before = .ok names

namespace Registered

variable {catalog : EventCatalog ε} {names : StreamNames}

theorem knows (h : Registered catalog names) : Knows catalog := by
  obtain ⟨before, hbefore⟩ := h.events
  exact knows_of_registerAll hbefore

theorem streamOf_eq (h : Registered catalog names) (id : String) :
    names.streamOf typeName id = .ok (streamName id) := by
  obtain ⟨before, hbefore⟩ := h.stream
  refine streamOf_of_rule ?_ id
  rw [(StreamNames.get?_of_register_eq_ok hbefore typeName).2, if_pos (List.mem_singleton_self _)]

end Registered

end Order

end EventLog
