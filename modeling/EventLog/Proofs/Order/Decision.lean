/-
# Which commands are accepted

Every behaviour of an order has guards of its own, and each is written where the behaviour
is. `OrderState.Decision` gathers them: one case for each command, with the status that the
command asks for, what it asks of its arguments, and the event it becomes. Nothing else is
ever decided (`OrderState.decide_eq_ok_iff`), so what is to be known of a decided event is
known from these six cases and the definitions are not opened again.
-/

import EventLog.Order.Command
import EventLog.Proofs.Except

namespace EventLog.OrderState

variable {s : OrderState} {now : Timestamp} {command : OrderCommand} {e : OrderEvent}

/-- There is something to order, and a positive number of each thing. -/
def Orderable (items : List OrderItem) : Prop :=
  items ≠ [] ∧ ∀ item ∈ items, 0 < item.quantity.toInt

theorem checkItems_eq_ok_iff {items : List OrderItem} :
    checkItems items = .ok () ↔ Orderable items := by
  have hpositive : ∀ item : OrderItem, ¬ item.quantity ≤ 0 ↔ 0 < item.quantity.toInt := by
    intro item
    rw [Int32.le_iff_toInt_le, Int.not_le]
    rfl
  rw [checkItems, Orderable]
  cases items with
  | nil => simp
  | cons first rest =>
      cases hfind : (first :: rest).find? fun item => item.quantity ≤ 0 with
      | some item =>
          have hmem := List.mem_of_find?_eq_some hfind
          have hnot : ¬ ∀ item ∈ first :: rest, 0 < item.quantity.toInt := fun h =>
            (hpositive item).mpr (h item hmem) (by simpa using List.find?_some hfind)
          simp only [List.isEmpty_cons, Bool.false_eq_true, if_false, reduceCtorEq, false_iff]
          exact fun h => hnot h.2
      | none =>
          have hall : ∀ item ∈ first :: rest, 0 < item.quantity.toInt := fun item hmem =>
            (hpositive item).mp (by simpa using List.find?_eq_none.mp hfind item hmem)
          simp only [List.isEmpty_cons, Bool.false_eq_true, if_false, true_iff]
          exact ⟨List.cons_ne_nil _ _, hall⟩

theorem requireStatus_eq_ok_iff {status : OrderStatus} :
    s.requireStatus = .ok status ↔ s.status = some status := by
  unfold requireStatus
  cases s.status <;> simp

/-- Everything that can be decided on a state, with the guards of each command. -/
inductive Decision (s : OrderState) (now : Timestamp) : OrderCommand → OrderEvent → Prop
  | created {customerId : Uuid} {items : List OrderItem} (hstatus : s.status = none)
      (hitems : Orderable items) :
      Decision s now (.create customerId items) (.created ⟨customerId, items⟩)
  | itemsUpdated {items : List OrderItem} {reason : Option String}
      (hstatus : s.status = some .created) (hitems : Orderable items) :
      Decision s now (.updateItems items reason) (.itemsUpdated ⟨items, reason⟩)
  | confirmed (hstatus : s.status = some .created) : Decision s now .confirm (.confirmed ⟨now⟩)
  | shipped {trackingNumber carrier : String} (hstatus : s.status = some .confirmed)
      (hblank : Text.allBlank trackingNumber = false) :
      Decision s now (.ship trackingNumber carrier) (.shipped ⟨trackingNumber, carrier, now⟩)
  | delivered {signature : Option String} (hstatus : s.status = some .shipped) :
      Decision s now (.deliver signature) (.delivered ⟨now, signature⟩)
  | cancelled {reason : Option String} {cancelledBy : Option Uuid} {status : OrderStatus}
      (hstatus : s.status = some status) (hopen : status.isFinal = false) :
      Decision s now (.cancel reason cancelledBy) (.cancelled ⟨reason, cancelledBy⟩)

/-- A command is accepted exactly under its guards, and becomes the event of its kind. -/
theorem decide_eq_ok_iff : s.decide now command = .ok e ↔ s.Decision now command e := by
  constructor
  · intro h
    cases command with
    | create customerId items =>
        rw [decide, decideCreate] at h
        by_cases hexists : s.status.isSome = true
        · rw [if_pos hexists] at h
          cases h
        · rw [if_neg hexists] at h
          obtain ⟨done, hitems, h⟩ := Except.bind_eq_ok_iff.mp h
          cases h
          exact .created (Option.not_isSome_iff_eq_none.mp hexists)
            (checkItems_eq_ok_iff.mp hitems)
    | updateItems items reason =>
        obtain ⟨status, hstatus, h⟩ := Except.bind_eq_ok_iff.mp h
        cases status with
        | created =>
            obtain ⟨done, hitems, h⟩ := Except.bind_eq_ok_iff.mp h
            cases h
            exact .itemsUpdated (requireStatus_eq_ok_iff.mp hstatus)
              (checkItems_eq_ok_iff.mp hitems)
        | _ => cases h
    | confirm =>
        obtain ⟨status, hstatus, h⟩ := Except.bind_eq_ok_iff.mp h
        cases status with
        | created =>
            cases h
            exact .confirmed (requireStatus_eq_ok_iff.mp hstatus)
        | _ => cases h
    | ship trackingNumber carrier =>
        obtain ⟨status, hstatus, h⟩ := Except.bind_eq_ok_iff.mp h
        cases status with
        | confirmed =>
            by_cases hblank : Text.allBlank trackingNumber = true
            · simp [hblank] at h
            · simp only [hblank] at h
              cases h
              exact .shipped (requireStatus_eq_ok_iff.mp hstatus) (by simpa using hblank)
        | _ => cases h
    | deliver signature =>
        obtain ⟨status, hstatus, h⟩ := Except.bind_eq_ok_iff.mp h
        cases status with
        | shipped =>
            cases h
            exact .delivered (requireStatus_eq_ok_iff.mp hstatus)
        | _ => cases h
    | cancel reason cancelledBy =>
        obtain ⟨status, hstatus, h⟩ := Except.bind_eq_ok_iff.mp h
        cases status with
        | cancelled => cases h
        | delivered => cases h
        | _ =>
            cases h
            exact .cancelled (requireStatus_eq_ok_iff.mp hstatus) rfl
  · intro h
    cases h with
    | created hstatus hitems =>
        simp [decide, decideCreate, hstatus, checkItems_eq_ok_iff.mpr hitems, bind, Except.bind]
    | itemsUpdated hstatus hitems =>
        simp [decide, decideUpdateItems, requireStatus, hstatus, checkItems_eq_ok_iff.mpr hitems,
          bind, Except.bind]
    | confirmed hstatus =>
        simp [decide, decideConfirm, requireStatus, hstatus, bind, Except.bind]
    | shipped hstatus hblank =>
        simp [decide, decideShip, requireStatus, hstatus, hblank, bind, Except.bind]
    | delivered hstatus =>
        simp [decide, decideDeliver, requireStatus, hstatus, bind, Except.bind]
    | @cancelled _ _ status hstatus hopen =>
        cases status with
        | delivered => cases hopen
        | cancelled => cases hopen
        | _ => simp [decide, decideCancel, requireStatus, hstatus, bind, Except.bind]

end EventLog.OrderState
