/-
# Payloads of order events

An order event is read from its own payload (`OrderEvent.unmarshal_toJson`), whatever blank
of its kind the payload is read into. The values in it are read one field at a time: a record
gives back the members it was made of (`Json.fields?_record`), and each kind of field its value.
Instants are the one kind of value that a payload may fail to carry, so the event has to be of a
year that can be read (`OrderEvent.Readable`), as everything that a clock says is.
-/

import EventLog.Order.CommandHandler
import EventLog.Proofs.Json.Records
import EventLog.Proofs.Json.RoundTrip
import EventLog.Proofs.Timestamp
import EventLog.Proofs.Uuid

namespace EventLog

namespace Json

/-! ## Fields -/

@[simp] theorem asText_ofText (s : String) : asText (ofText s) = some s := rfl

@[simp] theorem asUuid_ofText_text (u : Uuid) : asUuid (ofText u.text) = some u := by
  rw [asUuid, asText_ofText, Option.bind_some, Uuid.ofText?_text]

theorem asTimestamp_ofText_text {t : Timestamp} (h : t.date.inRange = true) :
    asTimestamp (ofText t.text) = some t := by
  rw [asTimestamp, asText_ofText, Option.bind_some, Timestamp.ofText?_text h]

@[simp] theorem asInt32_int_toInt (n : Int32) : asInt32 (.int n.toInt) = some n := by
  rw [asInt32, asInt, if_pos ⟨n.minValue_le_toInt, n.toInt_le⟩, Option.map_some,
    Int32.ofInt_toInt]

theorem asList_map {α : Type} {encode : α → Json} {decode : Json → Option α}
    (h : ∀ a, decode (encode a) = some a) (items : List α) :
    asList decode (.array (items.map encode)) = some items := by
  show (items.map encode).mapM decode = some items
  induction items with
  | nil => rfl
  | cons a rest ih =>
      rw [List.map_cons, List.mapM_cons, h a, ih]
      rfl

/-- A field that may be missing, written as `null` if it is. -/
theorem optional_ofOption {α : Type} {encode : α → Json} {decode : Json → Option α}
    (hnull : ∀ a, encode a ≠ .null) (h : ∀ a, decode (encode a) = some a) (value : Option α) :
    optional decode (some (ofOption encode value)) = some value := by
  cases value with
  | none => rfl
  | some a =>
      show optional decode (some (encode a)) = _
      rw [optional, h a]
      · rfl
      · exact hnull a

end Json

open Json

/-! ## Events -/

@[simp] theorem OrderItem.ofJson?_toJson (item : OrderItem) :
    OrderItem.ofJson? item.toJson = some item := by
  have hfields : fields? ["product_id", "quantity"] item.toJson = some _ :=
    fields?_record ["product_id", "quantity"]
      [.ofText item.productId.text, .int item.quantity.toInt] (by decide) rfl
  rw [ofJson?, hfields]
  simp [required]

/-- The list of items of an event. -/
theorem asList_items (items : List OrderItem) :
    asList OrderItem.ofJson? (.array (items.map OrderItem.toJson)) = some items :=
  asList_map OrderItem.ofJson?_toJson items

theorem optional_asText (value : Option String) :
    optional asText (some (ofOption ofText value)) = some value :=
  optional_ofOption nofun asText_ofText value

theorem optional_asUuid (value : Option Uuid) :
    optional asUuid (some (ofOption (fun id => ofText id.text) value)) = some value :=
  optional_ofOption (fun _ => Json.noConfusion) asUuid_ofText_text value

theorem OrderCreated.ofJson?_toJson (e : OrderCreated) : ofJson? e.toJson = some e := by
  have hfields : fields? ["customer_id", "items"] e.toJson = some _ :=
    fields?_record ["customer_id", "items"]
      [.ofText e.customerId.text, .array (e.items.map OrderItem.toJson)] (by decide) rfl
  rw [ofJson?, hfields]
  simp [required, asList_items]

theorem OrderItemsUpdated.ofJson?_toJson (e : OrderItemsUpdated) : ofJson? e.toJson = some e := by
  have hfields : fields? ["items", "reason"] e.toJson = some _ :=
    fields?_record ["items", "reason"]
      [.array (e.items.map OrderItem.toJson), .ofOption .ofText e.reason] (by decide) rfl
  rw [ofJson?, hfields]
  simp [required, asList_items, optional_asText]

theorem OrderConfirmed.ofJson?_toJson {e : OrderConfirmed}
    (h : e.confirmedAt.date.inRange = true) : ofJson? e.toJson = some e := by
  have hfields : fields? ["confirmed_at"] e.toJson = some _ :=
    fields?_record ["confirmed_at"] [.ofText e.confirmedAt.text] (by decide) rfl
  rw [ofJson?, hfields]
  simp [required, asTimestamp_ofText_text h]

theorem OrderShipped.ofJson?_toJson {e : OrderShipped} (h : e.shippedAt.date.inRange = true) :
    ofJson? e.toJson = some e := by
  have hfields : fields? ["tracking_number", "carrier", "shipped_at"] e.toJson = some _ :=
    fields?_record ["tracking_number", "carrier", "shipped_at"]
      [.ofText e.trackingNumber, .ofText e.carrier, .ofText e.shippedAt.text] (by decide) rfl
  rw [ofJson?, hfields]
  simp [required, asTimestamp_ofText_text h]

theorem OrderDelivered.ofJson?_toJson {e : OrderDelivered}
    (h : e.deliveredAt.date.inRange = true) : ofJson? e.toJson = some e := by
  have hfields : fields? ["delivered_at", "signature"] e.toJson = some _ :=
    fields?_record ["delivered_at", "signature"]
      [.ofText e.deliveredAt.text, .ofOption .ofText e.signature] (by decide) rfl
  rw [ofJson?, hfields]
  simp [required, asTimestamp_ofText_text h, optional_asText]

theorem OrderCancelled.ofJson?_toJson (e : OrderCancelled) : ofJson? e.toJson = some e := by
  have hfields : fields? ["reason", "cancelled_by"] e.toJson = some _ :=
    fields?_record ["reason", "cancelled_by"]
      [.ofOption .ofText e.reason, .ofOption (fun id : Uuid => .ofText id.text) e.cancelledBy]
      (by decide) rfl
  rw [ofJson?, hfields]
  simp [optional_asText, optional_asUuid]

namespace OrderEvent

/-- The instant an event speaks of, if it speaks of one, can be read back. -/
def Readable : OrderEvent → Prop
  | confirmed e => e.confirmedAt.date.inRange = true
  | shipped e => e.shippedAt.date.inRange = true
  | delivered e => e.deliveredAt.date.inRange = true
  | _ => True

/-- The payload of an event is read into a blank of its kind. -/
theorem ofJson?_toJson {blank e : OrderEvent} (hname : blank.name = e.name) (h : e.Readable) :
    blank.ofJson? e.toJson = some e := by
  cases e with
  | created e =>
      cases blank with
      | created _ => rw [ofJson?, toJson, e.ofJson?_toJson, Option.map_some]
      | _ => simp [name] at hname
  | itemsUpdated e =>
      cases blank with
      | itemsUpdated _ => rw [ofJson?, toJson, e.ofJson?_toJson, Option.map_some]
      | _ => simp [name] at hname
  | confirmed e =>
      cases blank with
      | confirmed _ => rw [ofJson?, toJson, OrderConfirmed.ofJson?_toJson h, Option.map_some]
      | _ => simp [name] at hname
  | shipped e =>
      cases blank with
      | shipped _ => rw [ofJson?, toJson, OrderShipped.ofJson?_toJson h, Option.map_some]
      | _ => simp [name] at hname
  | delivered e =>
      cases blank with
      | delivered _ => rw [ofJson?, toJson, OrderDelivered.ofJson?_toJson h, Option.map_some]
      | _ => simp [name] at hname
  | cancelled e =>
      cases blank with
      | cancelled _ => rw [ofJson?, toJson, e.ofJson?_toJson, Option.map_some]
      | _ => simp [name] at hname

/-- An event is read from its own payload. -/
theorem unmarshal_toJson {blank e : OrderEvent} (hname : blank.name = e.name) (h : e.Readable) :
    EventType.unmarshal blank e.toJson.text = .ok e := by
  simp only [EventType.unmarshal, Json.ofText?_text, Option.bind_some, ofJson?_toJson hname h]

end OrderEvent

end EventLog
