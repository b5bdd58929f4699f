/-
# What is delivered again

Whoever hands events to the order view may hand it some of them again. The view has two ways
not to count them twice: an order that it knows is not created again, and a summary does not
go back to a version that it has passed. Neither is enough alone. Whether an order is created
is not asked of versions, and an event of an order that is not there leaves no version behind.

`OrderSummary.Settled` says in which states an event has nothing left to tell. An event is
settled by being handed over, and later events of its order leave it settled. So the view after
any redelivery is the view after each event once (`OrderView.after_of_redelivers`), as long as
every order's own events come in the order of their versions. That they do is needed: an event
that came before its order was created would be news when it came again, were its version above
the one the order was created at. How the orders take turns does not matter, since an event
concerns its own order only.

Nothing is asked of the delivery for the rest: a summary that is there stays, and moves on
(`OrderSummary.LeadsTo`), and what the view lists and counts is what it finds
(`OrderView.Consistent`).
-/

import EventLog.Proofs.Dictionary
import EventLog.Proofs.Order.View
import Mathlib.Algebra.Ring.Nat
import Mathlib.Data.List.Induction
import Mathlib.Data.List.Sort

namespace EventLog

/-! ## One order -/

namespace OrderSummary

/-- What remains of a summary when it becomes another one. -/
structure LeadsTo (before after : OrderSummary) : Prop where
  orderId : after.orderId = before.orderId
  customerId : after.customerId = before.customerId
  version : before.version ≤ after.version

namespace LeadsTo

variable {before between after : OrderSummary}

theorem refl (summary : OrderSummary) : summary.LeadsTo summary := ⟨rfl, rfl, Int.le_refl _⟩

theorem trans (h : before.LeadsTo between) (h' : between.LeadsTo after) :
    before.LeadsTo after :=
  ⟨h'.orderId.trans h.orderId, h'.customerId.trans h.customerId, Int.le_trans h.version h'.version⟩

end LeadsTo

theorem leadsTo_follow (summary : OrderSummary) (event : OrderEvent) :
    summary.LeadsTo (summary.follow event) := by
  cases event <;> exact ⟨rfl, rfl, Int.le_refl _⟩

theorem leadsTo_advance (summary : OrderSummary) (version : Int) (event : Option OrderEvent) :
    summary.LeadsTo (summary.advance version event) := by
  by_cases hpassed : version ≤ summary.version
  · rw [advance_of_le hpassed]
    exact .refl summary
  · have hmoved : summary.LeadsTo { summary with version } :=
      ⟨rfl, rfl, Int.le_of_lt (Int.not_le.mp hpassed)⟩
    rw [advance, if_neg hpassed]
    cases event with
    | none => exact hmoved
    | some event => exact hmoved.trans (leadsTo_follow _ event)

/-- An event that creates no order can only move a summary that is there. -/
theorem next?_of_ne_created {event : Option OrderEvent}
    (h : ∀ created, event ≠ some (.created created)) (orderId : String) (version : Int)
    (before : Option OrderSummary) :
    next? orderId version event before =
      before.map fun summary => summary.advance version event := by
  unfold next?
  split
  · exact absurd rfl (h _)
  · exact absurd rfl (h _)
  · rfl

/-- No event takes a summary away. -/
theorem exists_next?_some (orderId : String) (version : Int) (event : Option OrderEvent)
    (summary : OrderSummary) :
    ∃ after, next? orderId version event (some summary) = some after ∧ summary.LeadsTo after := by
  by_cases hcreated : ∃ created, event = some (.created created)
  · obtain ⟨created, rfl⟩ := hcreated
    exact ⟨summary, rfl, .refl summary⟩
  · rw [next?_of_ne_created (not_exists.mp hcreated)]
    exact ⟨_, rfl, leadsTo_advance summary version event⟩

/-- The event at this version has nothing to tell about an order whose summary, or the absence
of one, is this. -/
inductive Settled (version : Int) : Option OrderEvent → Option OrderSummary → Prop
  | known (event : OrderCreated) (summary : OrderSummary) :
      Settled version (some (.created event)) (some summary)
  | passed (event : Option OrderEvent) {summary : OrderSummary} (h : version ≤ summary.version) :
      Settled version event (some summary)
  | unknown {event : Option OrderEvent} (h : ∀ created, event ≠ some (.created created)) :
      Settled version event none

namespace Settled

variable {version : Int} {event : Option OrderEvent} {before : Option OrderSummary}

/-- An event that is followed has nothing more to tell. -/
theorem next? (orderId : String) (version : Int) (event : Option OrderEvent)
    (before : Option OrderSummary) :
    Settled version event (OrderSummary.next? orderId version event before) := by
  by_cases hcreated : ∃ created, event = some (.created created)
  · obtain ⟨created, rfl⟩ := hcreated
    cases before <;> exact .known created _
  · rw [next?_of_ne_created (not_exists.mp hcreated)]
    cases before with
    | none => exact .unknown (not_exists.mp hcreated)
    | some summary => exact .passed event (le_version_advance summary version event)

/-- What comes later in the order does not make it news again: an order that is there by now has
passed its version. -/
theorem later (h : Settled version event before) (orderId : String) {version' : Int}
    (hversion : version ≤ version') (event' : Option OrderEvent) :
    Settled version event (OrderSummary.next? orderId version' event' before) := by
  cases h with
  | known event summary =>
      obtain ⟨after, hafter, -⟩ := exists_next?_some orderId version' event' summary
      rw [hafter]
      exact .known event after
  | passed event hpassed =>
      obtain ⟨after, hafter, hleads⟩ := exists_next?_some orderId version' event' _
      rw [hafter]
      exact .passed event (Int.le_trans hpassed hleads.version)
  | unknown hcreated =>
      by_cases hcreated' : ∃ created, event' = some (.created created)
      · obtain ⟨created, rfl⟩ := hcreated'
        exact .passed event hversion
      · rw [next?_of_ne_created (not_exists.mp hcreated')]
        exact .unknown hcreated

end Settled

end OrderSummary

/-! ## Deliveries -/

namespace Envelope

variable {ε : Type}

/-- The version of `a` is below that of `b`. An envelope that has none counts as having 0. -/
def Precedes (a b : Envelope ε) : Prop := a.version.getD 0 < b.version.getD 0

instance (a b : Envelope ε) : Decidable (a.Precedes b) :=
  inferInstanceAs (Decidable (a.version.getD 0 < b.version.getD 0))

/-- What of a delivery belongs to one aggregate. -/
def of (id : String) (delivered : List (Envelope ε)) : List (Envelope ε) :=
  delivered.filter fun envelope => envelope.aggregateId = id

theorem of_append (id : String) (delivered later : List (Envelope ε)) :
    of id (delivered ++ later) = of id delivered ++ of id later :=
  List.filter_append ..

theorem mem_of {id : String} {delivered : List (Envelope ε)} {envelope : Envelope ε} :
    envelope ∈ of id delivered ↔ envelope ∈ delivered ∧ envelope.aggregateId = id := by
  simp [of]

/-- The delivery is made of these histories, one for each aggregate: it takes every history in
its own order and lets them take turns. -/
def Interleaves (histories : String → List (Envelope ε)) (once : List (Envelope ε)) : Prop :=
  ∀ id, of id once = histories id

/-- Every aggregate's envelopes come in the order of their versions. -/
def InVersionOrder (once : List (Envelope ε)) : Prop :=
  ∀ id, (of id once).Pairwise Precedes

theorem InVersionOrder.of_snoc {once : List (Envelope ε)} {last : Envelope ε}
    (h : InVersionOrder (once ++ [last])) :
    InVersionOrder once ∧
      ∀ envelope ∈ once, last.aggregateId = envelope.aggregateId → envelope.Precedes last := by
  have hparts := fun id => List.pairwise_append.mp (of_append id once [last] ▸ h id)
  refine ⟨fun id => (hparts id).1, fun envelope hmem hid => ?_⟩
  exact (hparts last.aggregateId).2.2 envelope (mem_of.mpr ⟨hmem, hid.symm⟩) last
    (mem_of.mpr ⟨List.mem_cons_self, rfl⟩)

/-- The second list delivers the first one, envelope by envelope, and in between any envelope
that has been delivered already. -/
inductive Redelivers : List (Envelope ε) → List (Envelope ε) → Prop
  | nil : Redelivers [] []
  | new {once delivered : List (Envelope ε)} (h : Redelivers once delivered)
      (envelope : Envelope ε) : Redelivers (once ++ [envelope]) (delivered ++ [envelope])
  | again {once delivered : List (Envelope ε)} (h : Redelivers once delivered)
      (envelope : Envelope ε) (hmem : envelope ∈ delivered) :
      Redelivers once (delivered ++ [envelope])

theorem Redelivers.mem_of_mem {once delivered : List (Envelope ε)} {envelope : Envelope ε}
    (h : Redelivers once delivered) (hmem : envelope ∈ delivered) : envelope ∈ once := by
  induction h with
  | nil => exact hmem
  | new h last ih =>
      rw [List.mem_append] at hmem ⊢
      exact hmem.imp_left ih
  | again h last hlast ih =>
      cases List.mem_append.mp hmem with
      | inl hmem => exact ih hmem
      | inr hmem => exact ih (List.mem_singleton.mp hmem ▸ hlast)

end Envelope

/-! ## The view -/

namespace OrderView

section Delivering

variable {ε : Type} [EventType ε] [Includes OrderEvent ε] {view : OrderView}
  {once other delivered : List (Envelope ε)}

/-- The view that has been handed these envelopes. -/
def after (delivered : List (Envelope ε)) : OrderView :=
  delivered.foldl handle empty

theorem after_append (delivered later : List (Envelope ε)) :
    after (delivered ++ later) = later.foldl handle (after delivered) :=
  List.foldl_append

/-- The envelope has nothing to tell to the view. -/
def Settled (view : OrderView) (envelope : Envelope ε) : Prop :=
  OrderSummary.Settled (envelope.version.getD 0) (envelope.event.data? OrderEvent)
    (view.get? envelope.aggregateId)

theorem settled_handle (view : OrderView) (envelope : Envelope ε) :
    (view.handle envelope).Settled envelope := by
  rw [Settled, get?_handle, if_pos rfl]
  exact .next? _ _ _ _

theorem Settled.handle {envelope later : Envelope ε} (h : view.Settled envelope)
    (hlater : later.aggregateId = envelope.aggregateId → envelope.Precedes later) :
    (view.handle later).Settled envelope := by
  rw [Settled, get?_handle]
  split
  · rename_i hid
    exact h.later _ (Int.le_of_lt (hlater hid)) _
  · exact h

/-- What has nothing to tell changes nothing. -/
theorem Settled.handle_eq {envelope : Envelope ε} (h : view.Settled envelope) :
    view.handle envelope = view := by
  unfold Settled at h
  unfold OrderView.handle
  dsimp only
  generalize envelope.event.data? OrderEvent = event at h ⊢
  generalize hbefore : view.get? envelope.aggregateId = before at h ⊢
  cases h with
  | known event summary => exact congrArg mk (Dictionary.insertIfNew_of_get? hbefore _)
  | @passed event summary hpassed =>
      have hinsert : mk (view.summaries.insert envelope.aggregateId
          (summary.advance (envelope.version.getD 0) event)) = view := by
        rw [OrderSummary.advance_of_le hpassed]
        exact congrArg mk (Dictionary.insert_of_get? hbefore)
      split
      · exact congrArg mk (Dictionary.insertIfNew_of_get? hbefore _)
      · exact hinsert
  | unknown hcreated =>
      split
      · exact absurd rfl (hcreated _)
      · rfl

/-- Everything that has been delivered once is settled. -/
theorem settled_after (h : Envelope.InVersionOrder once) :
    ∀ envelope ∈ once, (after once).Settled envelope := by
  -- by the envelope that comes last: it settles itself and unsettles none of those before it
  induction once using List.reverseRecOn with
  | nil => nofun
  | append_singleton once last ih =>
      obtain ⟨honce, hlast⟩ := h.of_snoc
      rw [after_append]
      intro envelope hmem
      cases List.mem_append.mp hmem with
      | inl hmem => exact (ih honce envelope hmem).handle (hlast envelope hmem)
      | inr hmem =>
          cases List.mem_singleton.mp hmem
          exact settled_handle _ _

/-- Redelivery leaves no trace. -/
theorem after_of_redelivers (h : Envelope.Redelivers once delivered)
    (horder : Envelope.InVersionOrder once) : after delivered = after once := by
  induction h with
  | nil => rfl
  | new h envelope ih => rw [after_append, after_append, ih horder.of_snoc.1]
  | again h envelope hmem ih =>
      rw [after_append, ih horder]
      exact (settled_after horder _ (h.mem_of_mem hmem)).handle_eq

/-- What is found of an order comes from its own envelopes. -/
theorem get?_foldl_handle (delivered : List (Envelope ε)) (view : OrderView) (id : String) :
    (delivered.foldl handle view).get? id =
      (Envelope.of id delivered).foldl (fun before envelope =>
        OrderSummary.next? id (envelope.version.getD 0) (envelope.event.data? OrderEvent) before)
        (view.get? id) := by
  induction delivered generalizing view with
  | nil => rfl
  | cons envelope rest ih =>
      rw [List.foldl_cons, ih, get?_handle]
      by_cases hid : envelope.aggregateId = id <;> simp [hid, Envelope.of]

/-- A summary stays, however the delivery goes on. -/
theorem exists_get?_foldl_handle (later : List (Envelope ε)) {id : String}
    {summary : OrderSummary} (h : view.get? id = some summary) :
    ∃ summary', (later.foldl handle view).get? id = some summary' ∧ summary.LeadsTo summary' := by
  induction later generalizing view summary with
  | nil => exact ⟨summary, h, .refl summary⟩
  | cons envelope rest ih =>
      obtain ⟨between, hbetween, hleads⟩ :
          ∃ between, (view.handle envelope).get? id = some between ∧ summary.LeadsTo between := by
        rw [get?_handle, h]
        split
        · exact OrderSummary.exists_next?_some _ _ _ summary
        · exact ⟨summary, rfl, .refl summary⟩
      obtain ⟨summary', hsummary', hleads'⟩ := ih hbetween
      exact ⟨summary', hsummary', hleads.trans hleads'⟩

end Delivering

/-! ### Lists and counts -/

/-- Every summary stands under its own order. -/
def Keyed (view : OrderView) : Prop :=
  ∀ id summary, view.get? id = some summary → summary.orderId = id

theorem keyed_empty : empty.Keyed := nofun

theorem Keyed.handle {ε : Type} [EventType ε] [Includes OrderEvent ε] {view : OrderView}
    (h : view.Keyed) (envelope : Envelope ε) : (view.handle envelope).Keyed := by
  intro id summary hsummary
  rw [get?_handle] at hsummary
  split at hsummary
  · cases hbefore : view.get? id with
    | some before =>
        obtain ⟨after, hafter, hleads⟩ := OrderSummary.exists_next?_some id
          (envelope.version.getD 0) (envelope.event.data? OrderEvent) before
        rw [hbefore, hafter] at hsummary
        cases hsummary
        exact hleads.orderId.trans (h id before hbefore)
    | none =>
        -- where there is no summary, only the creation of the order makes one
        rw [hbefore] at hsummary
        generalize envelope.event.data? OrderEvent = event at hsummary
        by_cases hcreated : ∃ created, event = some (.created created)
        · obtain ⟨created, rfl⟩ := hcreated
          cases hsummary
          rfl
        · rw [OrderSummary.next?_of_ne_created (not_exists.mp hcreated)] at hsummary
          cases hsummary
  · exact h id summary hsummary

theorem keyed_after {ε : Type} [EventType ε] [Includes OrderEvent ε]
    (delivered : List (Envelope ε)) : (after delivered).Keyed := by
  induction delivered using List.reverseRecOn with
  | nil => exact keyed_empty
  | append_singleton delivered last ih =>
      rw [after_append]
      exact ih.handle last

/-- What the view lists and counts is what it finds. -/
structure Consistent (view : OrderView) : Prop where
  sorted : view.all.Pairwise fun a b => a.orderId < b.orderId
  mem_all_iff : ∀ summary, summary ∈ view.all ↔ view.get? summary.orderId = some summary
  mem_ids_iff : ∀ id, id ∈ view.all.map OrderSummary.orderId ↔ (view.get? id).isSome
  counted : (OrderStatus.all.map view.countByStatus).sum = view.all.length

/-- Every summary has one of the statuses. -/
theorem sum_countP_status (summaries : List OrderSummary) :
    (OrderStatus.all.map fun status =>
      summaries.countP fun summary => summary.status = status).sum = summaries.length := by
  induction summaries with
  | nil => rfl
  | cons summary rest ih =>
      simp only [OrderStatus.all, List.map_cons, List.map_nil, List.sum_cons, List.sum_nil,
        List.countP_cons, List.length_cons] at ih ⊢
      cases summary.status <;> simp <;> omega

theorem all_perm (view : OrderView) : view.all.Perm view.summaries.values :=
  List.mergeSort_perm _ _

theorem countByStatus_eq (view : OrderView) (status : OrderStatus) :
    view.countByStatus status = view.all.countP fun summary => summary.status = status :=
  (view.all_perm.countP_eq _).symm

namespace Keyed

variable {view : OrderView}

theorem mem_all_iff (h : view.Keyed) (summary : OrderSummary) :
    summary ∈ view.all ↔ view.get? summary.orderId = some summary := by
  rw [view.all_perm.mem_iff, Dictionary.values, List.mem_map]
  constructor
  · rintro ⟨⟨id, _⟩, hentry, rfl⟩
    have hget : view.get? id = some _ := Dictionary.get?_eq_some_iff_mem.mpr hentry
    rw [h id _ hget]
    exact hget
  · exact fun hget => ⟨_, Dictionary.get?_eq_some_iff_mem.mp hget, rfl⟩

theorem map_values (h : view.Keyed) :
    view.summaries.values.map OrderSummary.orderId = view.summaries.keys := by
  rw [Dictionary.values, Dictionary.keys, List.map_map]
  exact List.map_congr_left fun entry hentry =>
    h entry.1 entry.2 (Dictionary.get?_eq_some_iff_mem.mpr hentry)

/-- One summary to an order, so that none is beside its equal. -/
theorem sorted (h : view.Keyed) : view.all.Pairwise fun a b => a.orderId < b.orderId := by
  have htotal : Std.Total fun a b : OrderSummary => a.orderId ≤ b.orderId :=
    ⟨fun _ _ => String.le_total _ _⟩
  have htrans : IsTrans OrderSummary fun a b => a.orderId ≤ b.orderId :=
    ⟨fun _ _ _ => String.le_trans⟩
  have hle : view.all.Pairwise fun a b => a.orderId ≤ b.orderId :=
    List.pairwise_mergeSort' _ view.summaries.values
  have hne : view.all.Pairwise fun a b => a.orderId ≠ b.orderId :=
    List.pairwise_map.mp ((view.all_perm.map _).nodup_iff.mpr
      (h.map_values ▸ view.summaries.keys_nodup))
  exact (hle.and hne).imp fun hab => Std.lt_of_le_of_ne hab.1 fun heq => hab.2 heq

theorem nodup_all (h : view.Keyed) : view.all.Nodup :=
  h.sorted.imp fun hlt => fun | rfl => String.lt_irrefl _ hlt

theorem consistent (h : view.Keyed) : view.Consistent where
  sorted := h.sorted
  mem_all_iff := h.mem_all_iff
  mem_ids_iff id := by
    rw [List.mem_map, Option.isSome_iff_exists]
    constructor
    · rintro ⟨summary, hmem, rfl⟩
      exact ⟨summary, (h.mem_all_iff summary).mp hmem⟩
    · rintro ⟨summary, hget⟩
      cases h id summary hget
      exact ⟨summary, (h.mem_all_iff summary).mpr hget, rfl⟩
  counted := by
    rw [← sum_countP_status view.all]
    exact congrArg List.sum (List.map_congr_left fun status _ => view.countByStatus_eq status)

end Keyed

/-- Nobody who asks can tell the views apart. -/
structure Alike (a b : OrderView) : Prop where
  get? : ∀ id, a.get? id = b.get? id
  all : a.all = b.all
  countByStatus : ∀ status, a.countByStatus status = b.countByStatus status

/-- What the view lists and counts follows from what it finds. -/
theorem Keyed.alike {a b : OrderView} (ha : a.Keyed) (hb : b.Keyed)
    (hget : ∀ id, a.get? id = b.get? id) : a.Alike b := by
  have hperm : a.all.Perm b.all := by
    refine (List.perm_ext_iff_of_nodup ha.nodup_all hb.nodup_all).mpr fun summary => ?_
    rw [ha.mem_all_iff, hb.mem_all_iff, hget]
  have hall : a.all = b.all :=
    hperm.eq_of_pairwise (fun _ _ _ _ hab hba => absurd hba (String.lt_asymm hab))
      ha.sorted hb.sorted
  exact ⟨hget, hall, fun status => by rw [countByStatus_eq, countByStatus_eq, hall]⟩

/-! ### Deliveries of any kind -/

section

variable {ε : Type} [EventType ε] [Includes OrderEvent ε]

/-- The order view takes no harm from what is delivered to it. Let each order have its history,
with rising versions and events of any kind. However the histories take turns, and whatever is
delivered again on the way, the view is the one that is handed each envelope once, and the turns
do not show. And of any envelopes at all, in any order, with any of them missing or repeated:
a summary that is there remains, of the same customer and at no lower version; an envelope
changes the summary of its own aggregate at most; and the list of all summaries and the counts
by status agree with what the view finds. -/
theorem sound_under_delivery :
    (∀ (histories : String → List (Envelope ε)) (once other delivered : List (Envelope ε)),
      (∀ id, (histories id).Pairwise Envelope.Precedes) →
      Envelope.Interleaves histories once → Envelope.Interleaves histories other →
      Envelope.Redelivers once delivered →
        after delivered = after once ∧ (after delivered).Alike (after other)) ∧
    ∀ delivered : List (Envelope ε),
      (∀ later id summary, (after delivered).get? id = some summary →
        ∃ summary', (after (delivered ++ later)).get? id = some summary' ∧
          summary.LeadsTo summary') ∧
      (∀ envelope id, envelope.aggregateId ≠ id →
        (after (delivered ++ [envelope])).get? id = (after delivered).get? id) ∧
      (after delivered).Consistent := by
  constructor
  · intro histories once other delivered hversions honce hother hdelivered
    have hafter : after delivered = after once :=
      after_of_redelivers hdelivered fun id => honce id ▸ hversions id
    refine ⟨hafter, (keyed_after delivered).alike (keyed_after other) fun id => ?_⟩
    rw [hafter, after, after, get?_foldl_handle, get?_foldl_handle, honce, hother]
  · intro delivered
    refine ⟨fun later id summary hsummary => ?_, fun envelope id hid => ?_,
      (keyed_after delivered).consistent⟩
    · rw [after_append]
      exact exists_get?_foldl_handle later hsummary
    · rw [after_append]
      exact (get?_handle _ envelope id).trans (if_neg hid)

end

/-- Two orders: one is created, has an event of another family and is shipped; the other has an
event before it is created. Three envelopes come again. -/
theorem sound_under_delivery_two_orders :
    let created (id : String) (version : Int) : Envelope OrderEvent :=
      (Envelope.fresh id (.typed (.created ⟨.nil, []⟩))).withVersion version
    let shipped (id : String) (version : Int) : Envelope OrderEvent :=
      (Envelope.fresh id (.typed (.shipped ⟨"T", "C", .epoch⟩))).withVersion version
    let audited (id : String) (version : Int) : Envelope OrderEvent :=
      (Envelope.fresh id (.raw "Audited" "")).withVersion version
    let once := [created "7" 1, shipped "8" 1, audited "7" 3, created "8" 2, shipped "7" 4]
    let other := [shipped "8" 1, created "8" 2, created "7" 1, audited "7" 3, shipped "7" 4]
    let delivered := [created "7" 1, created "7" 1, shipped "8" 1, audited "7" 3,
      created "8" 2, shipped "8" 1, shipped "7" 4, audited "7" 3]
    (after delivered).Alike (after other) ∧
      after delivered = after once ∧
      (after delivered).get? "7" = some ⟨"7", .nil, .shipped, 0, 0, some "T", 4⟩ ∧
      (after delivered).get? "8" = some ⟨"8", .nil, .created, 0, 0, none, 2⟩ := by
  intro created shipped audited once other delivered
  let history (id : String) : List (Envelope OrderEvent) :=
    if "7" = id then [created "7" 1, audited "7" 3, shipped "7" 4]
    else if "8" = id then [shipped "8" 1, created "8" 2]
    else []
  have hversions : ∀ id, (history id).Pairwise Envelope.Precedes := by
    intro id
    dsimp only [history]
    split
    · decide
    · split
      · decide
      · exact .nil
  have hturns : ∀ list : List (Envelope OrderEvent),
      Envelope.of "7" list = history "7" → Envelope.of "8" list = history "8" →
      (∀ envelope ∈ list, envelope.aggregateId = "7" ∨ envelope.aggregateId = "8") →
      Envelope.Interleaves history list := by
    intro list h7 h8 hids id
    by_cases hid : "7" = id ∨ "8" = id
    · rcases hid with rfl | rfl
      · exact h7
      · exact h8
    · rw [not_or] at hid
      have hnone : ∀ envelope ∈ list, ¬ envelope.aggregateId = id := fun envelope hmem =>
        (hids envelope hmem).elim (fun h => h ▸ hid.1) fun h => h ▸ hid.2
      simp only [history, if_neg hid.1, if_neg hid.2]
      simpa [Envelope.of] using hnone
  have hdelivered : Envelope.Redelivers once delivered :=
    (((((((Envelope.Redelivers.nil.new (created "7" 1)).again (created "7" 1) (by simp)).new
      (shipped "8" 1)).new (audited "7" 3)).new (created "8" 2)).again (shipped "8" 1)
        (by simp)).new (shipped "7" 4)).again (audited "7" 3) (by simp)
  obtain ⟨honce, hother⟩ := sound_under_delivery.1 history once other delivered hversions
    (hturns once rfl rfl (by decide)) (hturns other rfl rfl (by decide)) hdelivered
  exact ⟨hother, honce, by decide, by decide⟩

end OrderView

end EventLog
