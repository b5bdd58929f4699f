/-
# Payloads of any layout

A payload that is stored today is read by later versions, and one that a later version stored may
have members that nobody knows here. `OrderEvent.layout_free` says what a payload may look like
without a difference. As a text it may be any that stands for the value (`StandsFor`); as a value
it may be laid out in any of the ways of `Relaid`, and so may each item in it (`SameItems`).

All of that is known of records in general once an event is seen as a record: the fields of each
kind (`OrderEvent.fields`) and what their values make up (`OrderEvent.build`), which is all that
its decoder uses (`OrderEvent.ofJson?_eq_read`). What is left for each kind are the two laws of a
`RecordReader`.

An event into which a payload is read is changed in place (`OrderEvent.refill`). What a payload
says does not depend on what the event held before, so after any payloads it holds what the last
one says that was accepted (`OrderEvent.refilled_eq`).
-/

import EventLog.Order.Event
import EventLog.Proofs.Except
import EventLog.Proofs.Json.Acceptance
import EventLog.Proofs.Json.Records
import EventLog.Proofs.Order.Codec
import Mathlib.Data.List.Induction

namespace EventLog

open Json

/-! ## Items -/

namespace OrderItem

/-- The fields of an item. -/
def fields : List Field := [⟨"product_id", false⟩, ⟨"quantity", false⟩]

/-- What the values of the fields make up. -/
def build : List (Option Json) → Option OrderItem
  | [productId, quantity] => do
    some ⟨← required asUuid productId, ← required asInt32 quantity⟩
  | _ => none

/-- Items are read by their fields. -/
def reader : RecordReader Eq OrderItem where
  fields := fields
  build := build
  distinct := by decide
  build_agree {olds news} h := by
    simp only [fields, List.forall_mem_cons] at h
    obtain ⟨hproduct, hquantity, -⟩ := h
    show build [olds "product_id", olds "quantity"] = build [news "product_id", news "quantity"]
    rw [build, build, hproduct.required rfl fun h => h ▸ rfl,
      hquantity.required rfl fun h => h ▸ rfl]
  build_missing {values} := by
    simp only [fields, List.forall_mem_cons]
    refine ⟨fun _ hnone => ?_, fun _ hnone => ?_, nofun⟩
    · simp [build, hnone, required]
    · simp [build, hnone, required]

theorem ofJson?_eq_read (v : Json) : ofJson? v = reader.read v := rfl

end OrderItem

/-- The same value, or the same list with items of it laid out differently. -/
inductive SameItems : Json → Json → Prop
  | refl (v : Json) : SameItems v v
  | array {olds news : List Json} (h : olds.Forall₂ (Relaid OrderItem.fields Eq) news) :
      SameItems (.array olds) (.array news)

namespace SameItems

variable {v w : Json}

theorem eq_null_iff (h : SameItems v w) : v = .null ↔ w = .null := by
  cases h with
  | refl => exact Iff.rfl
  | array => exact iff_of_false nofun nofun

theorem asText_eq (h : SameItems v w) : asText v = asText w := by
  cases h <;> rfl

theorem asUuid_eq (h : SameItems v w) : asUuid v = asUuid w := by
  rw [asUuid, asUuid, h.asText_eq]

theorem asTimestamp_eq (h : SameItems v w) : asTimestamp v = asTimestamp w := by
  rw [asTimestamp, asTimestamp, h.asText_eq]

theorem asList_eq (h : SameItems v w) :
    asList OrderItem.ofJson? v = asList OrderItem.ofJson? w := by
  cases h with
  | refl => rfl
  | array h =>
      show List.mapM _ _ = List.mapM _ _
      induction h with
      | nil => rfl
      | cons hitem _ ih =>
          have hread := OrderItem.reader.read_relaid (fun _ => rfl) hitem
          rw [List.mapM_cons, List.mapM_cons, ih, OrderItem.ofJson?_eq_read,
            OrderItem.ofJson?_eq_read, hread]

end SameItems

/-! ## Events -/

namespace OrderEvent

/-- The fields of the payload. -/
def fields : OrderEvent → List Field
  | created _ => [⟨"customer_id", false⟩, ⟨"items", false⟩]
  | itemsUpdated _ => [⟨"items", false⟩, ⟨"reason", true⟩]
  | confirmed _ => [⟨"confirmed_at", false⟩]
  | shipped _ => [⟨"tracking_number", false⟩, ⟨"carrier", false⟩, ⟨"shipped_at", false⟩]
  | delivered _ => [⟨"delivered_at", false⟩, ⟨"signature", true⟩]
  | cancelled _ => [⟨"reason", true⟩, ⟨"cancelled_by", true⟩]

/-- What the values of the fields make up. -/
def build : OrderEvent → List (Option Json) → Option OrderEvent
  | created _, [customerId, items] => Option.map created do
    some ⟨← required asUuid customerId, ← required (asList OrderItem.ofJson?) items⟩
  | itemsUpdated _, [items, reason] => Option.map itemsUpdated do
    some ⟨← required (asList OrderItem.ofJson?) items, ← optional asText reason⟩
  | confirmed _, [confirmedAt] => Option.map confirmed do
    some ⟨← required asTimestamp confirmedAt⟩
  | shipped _, [trackingNumber, carrier, shippedAt] => Option.map shipped do
    some ⟨← required asText trackingNumber, ← required asText carrier,
      ← required asTimestamp shippedAt⟩
  | delivered _, [deliveredAt, signature] => Option.map delivered do
    some ⟨← required asTimestamp deliveredAt, ← optional asText signature⟩
  | cancelled _, [reason, cancelledBy] => Option.map cancelled do
    some ⟨← optional asText reason, ← optional asUuid cancelledBy⟩
  | _, _ => none

theorem build_agree (event : OrderEvent) {olds news : String → Option Json}
    (h : ∀ field ∈ event.fields, Agrees SameItems field (olds field.name) (news field.name)) :
    event.build ((event.fields.map Field.name).map olds) =
      event.build ((event.fields.map Field.name).map news) := by
  cases event <;> simp only [fields, List.forall_mem_cons] at h <;>
    simp only [build, fields, List.map_cons, List.map_nil]
  case created =>
    obtain ⟨hcustomer, hitems, -⟩ := h
    rw [hcustomer.required rfl SameItems.asUuid_eq, hitems.required rfl SameItems.asList_eq]
  case itemsUpdated =>
    obtain ⟨hitems, hreason, -⟩ := h
    rw [hitems.required rfl SameItems.asList_eq,
      hreason.optional SameItems.eq_null_iff SameItems.asText_eq]
  case confirmed =>
    obtain ⟨hat, -⟩ := h
    rw [hat.required rfl SameItems.asTimestamp_eq]
  case shipped =>
    obtain ⟨htracking, hcarrier, hat, -⟩ := h
    rw [htracking.required rfl SameItems.asText_eq, hcarrier.required rfl SameItems.asText_eq,
      hat.required rfl SameItems.asTimestamp_eq]
  case delivered =>
    obtain ⟨hat, hsignature, -⟩ := h
    rw [hat.required rfl SameItems.asTimestamp_eq,
      hsignature.optional SameItems.eq_null_iff SameItems.asText_eq]
  case cancelled =>
    obtain ⟨hreason, hby, -⟩ := h
    rw [hreason.optional SameItems.eq_null_iff SameItems.asText_eq,
      hby.optional SameItems.eq_null_iff SameItems.asUuid_eq]

theorem build_missing (event : OrderEvent) {values : String → Option Json} {field : Field}
    (h : field ∈ event.fields) (hrequired : field.optional = false)
    (hnone : values field.name = none) :
    event.build ((event.fields.map Field.name).map values) = none := by
  cases event <;> simp only [fields, List.mem_cons, List.not_mem_nil, or_false] at h
  case created => obtain rfl | rfl := h <;> simp [build, fields, hnone, required]
  case itemsUpdated =>
    obtain rfl | rfl := h
    · simp [build, fields, hnone, required]
    · cases hrequired
  case confirmed =>
    subst h
    simp [build, fields, hnone, required]
  case shipped => obtain rfl | rfl | rfl := h <;> simp [build, fields, hnone, required]
  case delivered =>
    obtain rfl | rfl := h
    · simp [build, fields, hnone, required]
    · cases hrequired
  case cancelled => obtain rfl | rfl := h <;> cases hrequired

/-- Events are read by their fields. -/
def reader (event : OrderEvent) : RecordReader SameItems OrderEvent where
  fields := event.fields
  build := event.build
  distinct := by cases event <;> simp [fields]
  build_agree := event.build_agree
  build_missing _ := event.build_missing

theorem ofJson?_eq_read (event : OrderEvent) (v : Json) :
    event.ofJson? v = event.reader.read v := by
  cases event <;>
    simp only [ofJson?, OrderCreated.ofJson?, OrderItemsUpdated.ofJson?, OrderConfirmed.ofJson?,
      OrderShipped.ofJson?, OrderDelivered.ofJson?, OrderCancelled.ofJson?, RecordReader.read,
      RecordReader.names, reader, fields, List.map_cons, List.map_nil] <;>
    cases fields? _ v
  case created.some values | itemsUpdated.some values | confirmed.some values |
      shipped.some values | delivered.some values | cancelled.some values =>
    obtain _ | ⟨first, _ | ⟨second, _ | ⟨third, _ | _⟩⟩⟩ := values <;> rfl
  all_goals rfl

/-! ## Texts -/

section Texts

variable (event : OrderEvent) {read : OrderEvent} {s t : String} {v w : Json}

theorem unmarshal_eq (s : String) :
    EventType.unmarshal event s =
      ((ofText? s).bind event.reader.read).elim (.error Error.serialization) .ok := by
  have hread : event.ofJson? = event.reader.read := funext event.ofJson?_eq_read
  rw [← hread]
  simp only [EventType.unmarshal]
  cases (ofText? s).bind event.ofJson? <;> rfl

/-- A text that stands for a value is read as the value. -/
theorem unmarshal_of_standsFor (h : StandsFor s v) :
    EventType.unmarshal event s = (event.reader.read v).elim (.error Error.serialization) .ok := by
  rw [unmarshal_eq, ofText?_of_standsFor h, Option.bind_some]

/-- What is accepted stands for a value that the fields can be read from. -/
theorem unmarshal_eq_ok_iff :
    EventType.unmarshal event s = .ok read ↔
      ∃ v, StandsFor s v ∧ event.reader.read v = some read := by
  simp only [← ofText?_eq_some_iff, ← Option.bind_eq_some_iff, unmarshal_eq]
  cases (ofText? s).bind event.reader.read <;> simp

theorem unmarshal_relaid (h : Relaid event.fields SameItems v w) (hs : StandsFor s v)
    (ht : StandsFor t w) : EventType.unmarshal event t = EventType.unmarshal event s := by
  have hread : event.reader.read w = event.reader.read v := event.reader.read_relaid .refl h
  rw [unmarshal_of_standsFor event hs, unmarshal_of_standsFor event ht, hread]

theorem unmarshal_of_spoiled {members : List (Option String × Json)}
    (h : Spoiled event.fields members) (hs : StandsFor s (.object members)) :
    EventType.unmarshal event s = .error .serialization := by
  have hread : event.reader.read (.object members) = none := event.reader.read_of_spoiled h
  rw [unmarshal_of_standsFor event hs, hread]
  rfl

/-- An item of the payload is spoiled. -/
def HasSpoiledItem (event : OrderEvent) (members : List (Option String × Json)) : Prop :=
  ⟨"items", false⟩ ∈ event.fields ∧ ∃ items fields, (some "items", .array items) ∈ members ∧
    .object fields ∈ items ∧ Spoiled OrderItem.fields fields

theorem build_of_items {event : OrderEvent} {values : String → Option Json} {items : List Json}
    (h : ⟨"items", false⟩ ∈ event.fields) (hitems : values "items" = some (.array items))
    (hrefused : ∃ item ∈ items, OrderItem.ofJson? item = none) :
    event.build ((event.fields.map Field.name).map values) = none := by
  have hlist : required (asList OrderItem.ofJson?) (values "items") = none := by
    rw [hitems]
    exact asList_eq_none hrefused
  cases event <;> simp [fields] at h <;> simp [build, fields, hlist]

theorem unmarshal_of_spoiledItem {members : List (Option String × Json)}
    (h : event.HasSpoiledItem members) (hs : StandsFor s (.object members)) :
    EventType.unmarshal event s = .error .serialization := by
  obtain ⟨hfield, items, fields, hmember, hitem, hspoiled⟩ := h
  have hread : event.reader.read (.object members) = none := by
    by_cases hlegible : Legible event.reader.names members
    · have honce := hlegible.once "items" (List.mem_map_of_mem hfield)
      have hrefused : OrderItem.ofJson? (.object fields) = none := by
        rw [OrderItem.ofJson?_eq_read]
        exact OrderItem.reader.read_of_spoiled hspoiled
      rw [RecordReader.read, fields?_of_legible hlegible]
      exact build_of_items hfield ((valueOf_eq_some_iff honce).mpr hmember)
        ⟨.object fields, hitem, hrefused⟩
    · rw [RecordReader.read, fields?_of_not_legible hlegible]
      rfl
  rw [unmarshal_of_standsFor event hs, hread]
  rfl

/-- What is accepted is an object that is not spoiled, or an array of all fields. -/
theorem layout_of_unmarshal (h : EventType.unmarshal event s = .ok read) :
    (∃ members, StandsFor s (.object members) ∧ ¬ Spoiled event.fields members) ∨
      ∃ values, StandsFor s (.array values) ∧ values.length = event.fields.length := by
  obtain ⟨v, hs, hread⟩ := event.unmarshal_eq_ok_iff.mp h
  cases v with
  | object members =>
      refine .inl ⟨members, hs, fun hspoiled => ?_⟩
      cases (event.reader.read_of_spoiled hspoiled).symm.trans hread
  | array values =>
      refine .inr ⟨values, hs, ?_⟩
      obtain ⟨found, hfields, -⟩ := Option.bind_eq_some_iff.mp hread
      obtain ⟨hlength, -⟩ := Option.ite_none_right_eq_some.mp hfields
      exact hlength.trans (List.length_map _)
  | _ => cases hread

end Texts

/-! ## Events that are read into -/

/-- The payload is read into the event, which stays what it was if the payload is refused. -/
def refill (event : OrderEvent) (payload : String) : Except Error Unit × OrderEvent :=
  (EventType.unmarshal event payload).settle event

/-- What the event is after these payloads. -/
def refilled (event : OrderEvent) (payloads : List String) : OrderEvent :=
  payloads.foldl (fun held payload => (held.refill payload).2) event

/-- A payload is read by the kind of the event and not by its content. -/
theorem unmarshal_congr {event other : OrderEvent} (h : event.name = other.name)
    (payload : String) : EventType.unmarshal event payload = EventType.unmarshal other payload := by
  cases event <;> cases other <;> first | rfl | simp [name] at h

theorem name_of_unmarshal {event read : OrderEvent} {payload : String}
    (h : EventType.unmarshal event payload = .ok read) : read.name = event.name := by
  obtain ⟨v, -, hread⟩ := event.unmarshal_eq_ok_iff.mp h
  rw [← ofJson?_eq_read] at hread
  exact name_ofJson? hread

theorem name_refill (event : OrderEvent) (payload : String) :
    (event.refill payload).2.name = event.name := by
  unfold refill
  cases h : EventType.unmarshal event payload with
  | error e => rfl
  | ok read => exact name_of_unmarshal h

theorem refilled_concat (event : OrderEvent) (payloads : List String) (last : String) :
    event.refilled (payloads ++ [last]) = ((event.refilled payloads).refill last).2 := by
  rw [refilled, List.foldl_append]
  rfl

theorem name_refilled (event : OrderEvent) (payloads : List String) :
    (event.refilled payloads).name = event.name := by
  induction payloads using List.reverseRecOn with
  | nil => rfl
  | append_singleton payloads last ih => rw [refilled_concat, name_refill, ih]

/-- After any payloads an event is what the last one says that was accepted, or what it was. -/
theorem refilled_eq (event : OrderEvent) (payloads : List String) :
    event.refilled payloads = (payloads.reverse.findSome? fun payload =>
      (EventType.unmarshal event payload).toOption).getD event := by
  induction payloads using List.reverseRecOn with
  | nil => rfl
  | append_singleton payloads last ih =>
      -- What was read before left the kind as it was, and only the kind counts.
      have hlast := unmarshal_congr (event.name_refilled payloads) last
      rw [refilled_concat, refill, hlast, List.reverse_append, List.reverse_singleton,
        List.singleton_append, List.findSome?_cons]
      cases EventType.unmarshal event last with
      | error e => exact ih
      | ok read => rfl

/-- Take any event into which payloads are read, and any payloads.

However a record is laid out and spelled, it is accepted as the same event or not at all, and the
payload of an event of this kind is accepted as that event in every layout. Nor does it matter
where white space is put in between the tokens of an object. No object is accepted with a field
given twice or without one that has to be there, nor with such an item. Whatever is accepted is the
text of an object that is free of that, or of the array of all fields.

What is refused leaves the event as it was. So after any payloads the event is what the last one
says that is accepted, whatever was read before, or what it was if none of them is. -/
theorem layout_free (event : OrderEvent) :
    (∀ v w s t, Relaid event.fields SameItems v w → StandsFor s v → StandsFor t w →
      EventType.unmarshal event t = EventType.unmarshal event s) ∧
    (∀ e w t, e.name = event.name → e.Readable → Relaid event.fields SameItems e.toJson w →
      StandsFor t w → EventType.unmarshal event t = .ok e) ∧
    (∀ members front back before spaces after, front ++ back = (Json.object members).tokens →
      Written front before → Written back after → (∀ c ∈ spaces, isSpace c = true) →
      EventType.unmarshal event (String.ofList (before ++ (spaces ++ after))) =
        EventType.unmarshal event (String.ofList (before ++ after))) ∧
    (∀ members s, StandsFor s (.object members) →
      Spoiled event.fields members ∨ event.HasSpoiledItem members →
      EventType.unmarshal event s = .error .serialization) ∧
    (∀ s read, EventType.unmarshal event s = .ok read →
      (∃ members, StandsFor s (.object members) ∧ ¬ Spoiled event.fields members) ∨
        ∃ values, StandsFor s (.array values) ∧ values.length = event.fields.length) ∧
    (∀ s e, (event.refill s).1 = .error e → (event.refill s).2 = event) ∧
    ∀ payloads, event.refilled payloads = (payloads.reverse.findSome? fun payload =>
      (EventType.unmarshal event payload).toOption).getD event := by
  refine ⟨fun v w s t h => event.unmarshal_relaid h, ?_, ?_, ?_,
    fun s read => event.layout_of_unmarshal, fun s e => Except.settle_of_error,
    event.refilled_eq⟩
  · intro e w t hname hreadable h ht
    exact (event.unmarshal_relaid h (standsFor_text e.toJson) ht).trans
      (unmarshal_toJson hname.symm hreadable)
  · intro members front back before spaces after htokens hbefore hafter hspaces
    have hwith : StandsFor (String.ofList (before ++ (spaces ++ after))) (.object members) := by
      rw [StandsFor, String.toList_ofList, ← htokens]
      exact hbefore.append (hafter.spaces hspaces)
    have hwithout : StandsFor (String.ofList (before ++ after)) (.object members) := by
      rw [StandsFor, String.toList_ofList, ← htokens]
      exact hbefore.append hafter
    exact event.unmarshal_relaid (.refl _) hwithout hwith
  · intro members s hs h
    exact h.elim (fun h => event.unmarshal_of_spoiled h hs)
      fun h => event.unmarshal_of_spoiledItem h hs

/-- A payload of a later version, spaced, with its members in another order and its only item laid
out as an array, is read as the event; one without items leaves the event as it was. -/
theorem layout_free_itemsUpdated :
    let item : OrderItem := ⟨.nil, 2⟩
    let event := itemsUpdated ⟨[item], none⟩
    let items := Json.array [.array [.ofText item.productId.text, .int item.quantity.toInt]]
    let later := [(some "note", .array [.object []]), (some "reason", .null), (some "items", items)]
    let spoiled := Json.object [(some "reason", .null)]
    let blank := itemsUpdated ⟨[], none⟩
    let rest := (memberTokens later).flatMap Token.chars
    EventType.unmarshal blank (String.ofList (['{'] ++ ([' ', '\n'] ++ rest))) = .ok event ∧
      (blank.refill spoiled.text).2 = blank := by
  intro item event items later spoiled blank rest
  obtain ⟨-, haccepts, hspace, hspoiled, -, hrefused, -⟩ := layout_free blank
  have hitem : Relaid OrderItem.fields Eq item.toJson
      (.array [.ofText item.productId.text, .int item.quantity.toInt]) :=
    @Relaid.array OrderItem.fields Eq [.ofText item.productId.text, .int item.quantity.toInt] rfl
  have hitems : SameItems (.array [item.toJson]) items := .array (.cons hitem .nil)
  have hlater : Relaid blank.fields SameItems event.toJson (.object later) :=
    @Relaid.object blank.fields SameItems _ [(some "items", items), (some "reason", .null)]
      [(some "note", .array [.object []])] later
      (.cons ⟨rfl, hitems⟩ (.cons ⟨rfl, .refl .null⟩ .nil)) (by simp [blank, fields])
      (List.reverse_perm [_, _, _])
  have htokens : [Token.openObject] ++ memberTokens later = (Json.object later).tokens := by
    rw [tokens]
    rfl
  have htext : StandsFor (String.ofList (['{'] ++ rest)) (.object later) := by
    rw [StandsFor, String.toList_ofList, ← htokens]
    exact .token .openObject (written_flatMap_chars _)
  have hread := haccepts event (.object later) _ rfl trivial hlater htext
  have hspaced := hspace later [.openObject] (memberTokens later) ['{'] [' ', '\n'] rest htokens
    (.token .openObject .nil) (written_flatMap_chars _) (by simp [isSpace])
  have hmissing : Spoiled blank.fields [(some "reason", .null)] :=
    ⟨⟨"items", false⟩, by decide, .inr ⟨rfl, by decide⟩⟩
  have herror := hspoiled _ _ (standsFor_text spoiled) (.inl hmissing)
  refine ⟨hspaced.trans hread, hrefused spoiled.text .serialization ?_⟩
  rw [refill, herror]
  rfl

end OrderEvent

end EventLog
