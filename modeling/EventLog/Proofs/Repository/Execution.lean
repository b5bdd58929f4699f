/-
# A command takes effect at most once

`Repository.execute` loads, acts and saves, and starts over when that fails in a way that may
pass. Others may write between any load and any save, so an attempt can find its stream moved
on, and nothing of such an attempt must be left when the next one begins: neither in the log
nor in what the next one acts on.

What carries the result is that an attempt which fails leaves the log as the others alone would
have it (`attempt_cases`); by induction over the attempts every one begins there. The last one
either leaves it there too or stores one batch, and the version that its save expects is that
of the history it has read, so nothing has come in between.
-/

import EventLog.Order.CommandHandler
import EventLog.Proofs.Repository.Attempts
import EventLog.Proofs.Repository.Loading
import EventLog.Proofs.Repository.SharedLog

namespace EventLog

variable {ε η ω σ κ : Type} [EventType ε]

/-! ## Actions and decoders -/

/-- All that an action does to an aggregate, if it does anything, is to raise events. -/
def OnlyRaises (type : AggregateType ε σ)
    (action : Aggregate ε σ → κ → Except Error (Aggregate ε σ) × κ) : Prop :=
  ∀ a own changed, (action a own).1 = .ok changed →
    ∃ events : List ε, events.foldlM (Aggregate.raise type) a = .ok changed

namespace Repository

variable {type : AggregateType ε σ} {stream id : String}

/-! ## Resting on a whole stream -/

section AnyBackend

variable {β : Type} (r : Repository ε β η ω)

/-- The aggregate is what the whole stream adds up to, and a new one if there is nothing in
it. -/
def IsRebuilt (type : AggregateType ε σ) (id stream : String) (s : Store)
    (a : Aggregate ε σ) : Prop :=
  if s.members stream = [] then a = .new type id
  else r.assemble type id (s.read stream) = .ok a

variable {r} in
/-- A rebuilt aggregate has applied what the stream holds, and nothing is pending. -/
theorem IsRebuilt.baseline {s : Store} (hsound : s.Sound) {a : Aggregate ε σ}
    (h : r.IsRebuilt type id stream s a) :
    a.id = id ∧ a.originalVersion = (s.members stream).length ∧ a.changes = [] := by
  unfold IsRebuilt at h
  split at h
  · rename_i hmembers
    rw [h, hmembers]
    exact ⟨rfl, rfl, rfl⟩
  · obtain ⟨-, state, -, rfl⟩ := (assemble_read_eq_ok_iff hsound).mp h
    exact ⟨rfl, rfl, rfl⟩

end AnyBackend

/-! ## Attempts among others -/

section Shared

variable [DecidableEq η] {r : Repository ε (Shared ε) η ω} {theirs ours : Nat → Draw}
  {start : Shared ε} {n : Nat} {w : World (Shared ε) η ω} {own : κ} {policy : RetryPolicy}
  {action : Aggregate ε σ → κ → Except Error (Aggregate ε σ) × κ}
  (hbackend : r.backend = Shared.backend theirs ours)
include hbackend

variable (type id own action) in
/-- An attempt fails and leaves the log as the others have it; or it succeeds, and then it has
loaded an aggregate after one turn of the others, the action has succeeded on it, and what that
has raised, if anything, is stored after one turn more. -/
theorem attempt_cases (h : w.backend.LeftAlone theirs start n) :
    let result := r.attempt type id action (w, own)
    (∃ e m, result.1 = .error e ∧ result.2.1.backend.LeftAlone theirs start m) ∨
    ∃ a changed, r.invokedOn type id (w, own) = some a ∧ (action a own).1 = .ok changed ∧
      ((changed.changes = [] ∧ result.1 = .ok changed ∧
          result.2.1.backend.LeftAlone theirs start (n + 1)) ∨
        (changed.changes ≠ [] ∧ result.1 = .ok (changed.markSaved changed.currentVersion) ∧
          ∃ stream, r.names.streamOf type.name changed.id = .ok stream ∧
            result.2.1.backend.Committed theirs ours start (n + 2) stream (outgoing changed)
              (some changed.originalVersion))) := by
  -- An attempt can end at the load, at the action and at the save.
  dsimp only [attempt, invokedOn]
  rcases hload : r.loadOrNew type id w with ⟨e | a, loaded⟩
  · obtain ⟨m, hloaded⟩ : ∃ m, (r.loadOrNew type id w).2.backend.LeftAlone theirs start m :=
      leftAlone_loadOrNew hbackend h
    rw [hload] at hloaded
    exact .inl ⟨e, m, rfl, hloaded⟩
  · have hovertaken := (loadOrNew_of_shared hbackend (congrArg Prod.fst hload)).1
    rw [hload] at hovertaken
    have hloaded : loaded.backend.LeftAlone theirs start (n + 1) := by
      rw [hovertaken]
      exact h.overtaken
    dsimp only
    rcases haction : action a own with ⟨e | changed, after⟩
    · exact .inl ⟨e, n + 1, rfl, hloaded⟩
    · dsimp only
      have hsave := save_cases hbackend hloaded type changed (some changed.originalVersion)
      rcases hsaved : r.save type changed (some changed.originalVersion) loaded with
        ⟨answer, saved, left⟩
      rw [hsaved] at hsave
      obtain ⟨e, m, rfl, hleft⟩ | ⟨hchanges, rfl, rfl, hleft⟩ |
        ⟨hchanges, rfl, rfl, stream, hstream, hleft⟩ := hsave
      · exact .inl ⟨e, m, rfl, hleft⟩
      · exact .inr ⟨a, _, rfl, haction ▸ rfl, .inl ⟨hchanges, rfl, hleft⟩⟩
      · exact .inr ⟨a, changed, rfl, haction ▸ rfl,
          .inr ⟨hchanges, rfl, stream, hstream, hleft⟩⟩

omit [DecidableEq η] in
/-- The action is invoked on what the whole stream adds up to after one turn of the others. -/
theorem isRebuilt_of_invokedOn (hsound : start.store.Sound) (plain : r.catalog.Plain)
    (h : w.backend.LeftAlone theirs start n) {a : Aggregate ε σ}
    (ha : r.invokedOn type id (w, own) = some a) :
    (r.loadOrNew type id w).2.backend.LeftAlone theirs start (n + 1) ∧
      ∃ stream, r.names.streamOf type.name id = .ok stream ∧
        r.IsRebuilt type id stream (start.alone theirs (n + 1)).store a := by
  obtain ⟨hovertaken, stream, hstream, hassemble⟩ :=
    loadOrNew_of_shared hbackend (Except.toOption_eq_some_iff.mp ha)
  have hsound' : (start.alone theirs (n + 1)).store.Sound := Shared.sound_alone hsound (n + 1)
  rw [h.overtaken.store] at hassemble
  rw [hovertaken]
  refine ⟨h.overtaken, stream, hstream, ?_⟩
  obtain hloaded | ⟨rfl, other, missing, hmissing⟩ := hassemble
  · rw [IsRebuilt, if_neg ((assemble_read_eq_ok_iff hsound').mp hloaded).1]
    exact hloaded
  · rw [IsRebuilt, if_pos (members_eq_nil_of_notFound hsound' plain hmissing)]

/-- A successful attempt has raised events on what it has rebuilt. If there are any, they have
been stored behind the version up to which it has read. -/
theorem raised_of_attempt (hsound : start.store.Sound) (behaves : OnlyRaises type action)
    (plain : r.catalog.Plain)
    (h : w.backend.LeftAlone theirs start n) {saved : Aggregate ε σ}
    (hsaved : (r.attempt type id action (w, own)).1 = .ok saved) :
    let read := (start.alone theirs (n + 1)).store
    let left := (r.attempt type id action (w, own)).2.1.backend
    ∃ stream a changed, ∃ events : List ε, r.names.streamOf type.name id = .ok stream ∧
      r.invokedOn type id (w, own) = some a ∧ r.IsRebuilt type id stream read a ∧
      (action a own).1 = .ok changed ∧ events.foldlM (Aggregate.raise type) a = .ok changed ∧
      changed.changes = events.map (fun e => .fresh id (.typed e)) ∧
      (events = [] ∧ saved = changed ∧ left.LeftAlone theirs start (n + 1) ∨
        events ≠ [] ∧ saved = changed.markSaved changed.currentVersion ∧
          left.Committed theirs ours start (n + 2) stream (outgoing changed)
            (some (read.members stream).length)) := by
  intro read left
  obtain ⟨e, m, hfailed, -⟩ | ⟨a, changed, ha, haction, hleft⟩ :=
    attempt_cases type id own action hbackend h
  · rw [hsaved] at hfailed
    cases hfailed
  obtain ⟨-, stream, hstream, hrebuilt⟩ := isRebuilt_of_invokedOn hbackend hsound plain h ha
  obtain ⟨hid, hversion, hpending⟩ := hrebuilt.baseline (Shared.sound_alone hsound (n + 1))
  obtain ⟨events, hevents⟩ := behaves a own changed haction
  obtain ⟨hid', hversion', hchanges⟩ := Aggregate.of_foldlM_raise hevents
  rw [hpending, List.nil_append, hid] at hchanges
  have hempty : changed.changes = [] ↔ events = [] := by
    rw [hchanges, List.map_eq_nil_iff]
  refine ⟨stream, a, changed, events, hstream, ha, hrebuilt, haction, hevents, hchanges, ?_⟩
  obtain ⟨hnone, hok, hafter⟩ | ⟨hsome, hok, other, hother, hafter⟩ := hleft
  · rw [hsaved] at hok
    exact .inl ⟨hempty.mp hnone, Except.ok.inj hok, hafter⟩
  · -- The save names the stream by the aggregate, which is still the one that was loaded.
    rw [hsaved] at hok
    rw [hid', hid, hstream] at hother
    cases hother
    rw [hversion', hversion] at hafter
    exact .inr ⟨fun hevents => hsome (hempty.mpr hevents), Except.ok.inj hok, hafter⟩

/-- A failed attempt leaves the log as the others have it. -/
theorem leftAlone_of_failed_attempt (h : w.backend.LeftAlone theirs start n) {e : Error}
    (he : (r.attempt type id action (w, own)).1 = .error e) :
    ∃ m, (r.attempt type id action (w, own)).2.1.backend.LeftAlone theirs start m := by
  obtain ⟨e', m, -, hleft⟩ | ⟨a, changed, -, -, ⟨-, hok, -⟩ | ⟨-, hok, -⟩⟩ :=
    attempt_cases type id own action hbackend h
  · exact ⟨m, hleft⟩
  · rw [he] at hok
    cases hok
  · rw [he] at hok
    cases hok

/-- Every attempt begins on the log as the others have it. -/
theorem leftAlone_attempts (h : w.backend.LeftAlone theirs start n) :
    ∀ begun ∈ r.attempts type id policy action (w, own),
      ∃ m, begun.1.backend.LeftAlone theirs start m := by
  intro begun hbegun
  obtain ⟨numbered, hnumbered, rfl⟩ := List.mem_map.mp hbegun
  refine RetryPolicy.of_mem_trailFrom
    (P := fun state : World (Shared ε) η ω × κ => ∃ m, state.1.backend.LeftAlone theirs start m)
    ?_ _ _ _ ⟨n, h⟩ numbered hnumbered
  rintro number ⟨world, before⟩ e after ⟨m, hm⟩ hfailed - delay
  have hleft := leftAlone_of_failed_attempt hbackend hm (congrArg Prod.fst hfailed)
  rw [hfailed] at hleft
  exact hleft

/-- Let the log in memory be in any state that calls can lead to, and let the others have put
any calls to it before each load and each save of an execution. The action is invoked no more
often than the policy permits, each time on the aggregate that the whole stream adds up to as
it is read just then, or on a new one if the stream is empty. All attempts but the last have
failed with a conflict or because the log was unavailable, and have left the log as the others
alone would have it. Decoders are taken not to report a missing aggregate: that would pass for
an empty stream.

The last attempt decides the result. If it fails, the log is as the others alone would have it.
If it succeeds, it has stored what was raised in one batch, or nothing if nothing was. The
batch is behind the history that the action was invoked on, with nothing in between, as long
as the stream is not deleted between the load and the save; and if identifiers are drawn
afresh, the one and the other read as they were read and as they were raised. -/
theorem execute_at_most_once (behaves : OnlyRaises type action) (plain : r.catalog.Plain)
    (id : String) (policy : RetryPolicy) (w : World (Shared ε) η ω) (own : κ)
    (earlier : List (LogCall ε)) (others : List (List (LogCall ε)))
    (hstart : w.backend = .opened (converse (Memory.access theirs) earlier .empty).2 others) :
    let alone (n : Nat) : Store := (w.backend.alone theirs n).store
    let attempts := r.attempts type id policy action (w, own)
    let invoked := attempts.filterMap (r.invokedOn type id)
    let result := r.execute type id policy action (w, own)
    let log := result.2.1.backend
    r.execute type id policy (recorded action) (w, own, []) =
      (result.1, result.2.1, result.2.2, invoked) ∧
    invoked.length ≤ max 1 policy.maxAttempts.toNat ∧
    (∀ begun ∈ attempts, ∃ n, begun.1.backend.LeftAlone theirs w.backend n ∧
      ∀ a, r.invokedOn type id begun = some a →
        (r.loadOrNew type id begun.1).2.backend.LeftAlone theirs w.backend (n + 1) ∧
        ∃ stream, r.names.streamOf type.name id = .ok stream ∧
          r.IsRebuilt type id stream (alone (n + 1)) a) ∧
    log.stored.length ≤ 1 ∧
    ∃ front final, attempts = front ++ [final] ∧
      (∀ begun ∈ front, ∃ e, (r.attempt type id action begun).1 = .error e ∧
        e.isTransient = true) ∧
      r.attempt type id action final = (result.1.toExcept, result.2) ∧
      (∀ e, result.1.toExcept = .error e → log.stored = [] ∧ ∃ n, log.store = alone n) ∧
      ∀ saved, result.1.toExcept = .ok saved →
        ∃ stream n a changed, ∃ events : List ε, r.names.streamOf type.name id = .ok stream ∧
          final.1.backend.LeftAlone theirs w.backend n ∧
          r.invokedOn type id final = some a ∧ r.IsRebuilt type id stream (alone (n + 1)) a ∧
          (action a final.2).1 = .ok changed ∧
          events.foldlM (Aggregate.raise type) a = .ok changed ∧
          changed.changes = events.map (fun e => .fresh id (.typed e)) ∧
          (events = [] ∧ saved = changed ∧ log.stored = [] ∧ log.store = alone (n + 1) ∨
            events ≠ [] ∧ saved = changed.markSaved changed.currentVersion ∧
              log.stored = [outgoing changed] ∧
              ((∀ call ∈ w.backend.turn (n + 1), call ≠ .delete stream) →
                (∃ placed, log.store.members stream = (alone (n + 1)).members stream ++ placed ∧
                  placed.length = events.length) ∧
                (FreshAlong theirs (w.backend.turn (n + 1)) (w.backend.alone theirs (n + 1)) →
                  (ours (log.ours - 1)).FreshFor (alone (n + 2)) events.length →
                    ∃ added, log.store.read stream = (alone (n + 1)).read stream ++ added ∧
                      List.Forall₂ (Entry.ReadsAs log.store) ((outgoing changed).map .given)
                        added))) := by
  intro alone attempts invoked result log
  have hsound : w.backend.store.Sound := by
    rw [hstart]
    exact Memory.sound_converse theirs Memory.sound_empty earlier
  have hnothing : w.backend.stored = [] := by
    rw [hstart]
    rfl
  have hbegun : ∀ begun ∈ attempts, ∃ n, begun.1.backend.LeftAlone theirs w.backend n :=
    leftAlone_attempts hbackend Shared.leftAlone_start
  obtain ⟨front, final, hattempts, hfront, hfinal⟩ :=
    r.exists_last_attempt type id policy action (w, own)
  have hmem : final ∈ attempts :=
    (congrArg (final ∈ ·) hattempts).mpr (List.mem_append_right front List.mem_cons_self)
  obtain ⟨n, hn⟩ := hbegun final hmem
  have hanswer : (r.attempt type id action (final.1, final.2)).1 = result.1.toExcept :=
    congrArg Prod.fst hfinal
  have hlog : (r.attempt type id action (final.1, final.2)).2.1.backend = log :=
    congrArg (fun ended => ended.2.1.backend) hfinal
  have herror (e : Error) (he : result.1.toExcept = .error e) :
      log.stored = [] ∧ ∃ n, log.store = alone n := by
    obtain ⟨m, hm⟩ := leftAlone_of_failed_attempt hbackend hn (hanswer.trans he)
    rw [hlog] at hm
    exact ⟨hm.stored.trans hnothing, m, hm.store⟩
  have hok (saved : Aggregate ε σ) (h : result.1.toExcept = .ok saved) :=
    raised_of_attempt hbackend hsound behaves plain hn (hanswer.trans h)
  rw [hlog] at hok
  -- The last attempt begins on a log in which nothing has been stored, so only it counts.
  have hstored : log.stored.length ≤ 1 := by
    cases hended : result.1.toExcept with
    | error e =>
        rw [(herror e hended).1]
        exact Nat.zero_le 1
    | ok saved =>
        obtain ⟨_, _, changed, _, -, -, -, -, -, -, ⟨-, -, hleft⟩ | ⟨-, -, hleft⟩⟩ :=
          hok saved hended
        · rw [hleft.stored, hnothing]
          exact Nat.zero_le 1
        · rw [hleft.stored, hnothing]
          exact Nat.le_refl 1
  have hinvoked : invoked.length ≤ max 1 policy.maxAttempts.toNat := by
    have hcount : invoked.length ≤ attempts.length := List.length_filterMap_le _ _
    exact Nat.le_trans hcount (length_attempts_le _)
  refine ⟨execute_recorded w own [], hinvoked, fun begun hmem => ?_, hstored, front, final,
    hattempts, hfront, hfinal, herror, fun saved hsaved => ?_⟩
  · obtain ⟨m, hm⟩ := hbegun begun hmem
    exact ⟨m, hm, fun a ha => isRebuilt_of_invokedOn hbackend hsound plain hm ha⟩
  · obtain ⟨stream, a, changed, events, hstream, ha, hrebuilt, haction, hraised, hchanges,
      hleft⟩ := hok saved hsaved
    refine ⟨stream, n, a, changed, events, hstream, hn, ha, hrebuilt, haction, hraised, hchanges,
      ?_⟩
    obtain ⟨hnone, hsame, hleft⟩ | ⟨hsome, hsame, hleft⟩ := hleft
    · exact .inl ⟨hnone, hsame, hleft.stored.trans hnothing, hleft.store⟩
    · have hbatch : (outgoing changed).length = events.length := by
        rw [outgoing, List.length_map, hchanges, List.length_map]
      refine .inr ⟨hsome, hsame, ?_, fun spared => ?_⟩
      · rw [hleft.stored, hnothing]
        rfl
      · have hafter := hleft.after_history hsound rfl spared
        rw [hbatch] at hafter
        exact hafter

end Shared

open EventLog.Order (aggregateType typeName)

/-- Order events are decoded by a reader that knows nothing of aggregates. -/
theorem plain_orderEvent (catalog : EventCatalog OrderEvent) : catalog.Plain := by
  intro name payload other missing h
  unfold EventCatalog.decode at h
  cases hblank : catalog.get? name with
  | none =>
      rw [hblank] at h
      cases h
  | some blank =>
      rw [hblank] at h
      cases blank with
      | raw name text => cases h
      | typed e =>
          simp only [Event.unmarshal, EventType.unmarshal] at h
          split at h
          · cases h
          · cases h

/-- The others write to the stream of an order between the load and the save of an execution,
which then starts over. -/
theorem execute_at_most_once_overtaken :
    let ours (n : Nat) : Draw := countingSupply (n + 500)
    let r : Repository OrderEvent (Shared OrderEvent) Nat Unit :=
      ⟨Shared.backend countingSupply ours, ⟨.ofList [(typeName, typeHashId)]⟩,
        Order.catalog OrderEvent, fun _ _ listeners => (listeners, []), none⟩
    let start : Shared OrderEvent := .opened .empty
      [[], [.append "order#7" [.fresh "7" (.typed (.itemsUpdated ⟨[], none⟩))] none]]
    let cancel (order : Order OrderEvent) (attempt : Nat) :=
      (order.raise (aggregateType OrderEvent) (.cancelled ⟨none, none⟩), attempt + 1)
    let result := r.execute (aggregateType OrderEvent) "7" .standard cancel
      (⟨start, .empty, (), none, 0⟩, 0)
    let log := result.2.1.backend
    result.1.isSuccess = true ∧ result.2.2 = 2 ∧ log.stored.map List.length = [1] ∧
      log.store.lastVersion "order#7" = 2 ∧ ∃ n batch added, log.stored = [batch] ∧
        log.store.read "order#7" = (start.alone countingSupply n).store.read "order#7" ++ added ∧
        List.Forall₂ (Entry.ReadsAs log.store) (batch.map .given) added := by
  intro ours r start cancel result log
  have hrun : result.1.isSuccess = true ∧ result.2.2 = 2 ∧ log.stored.map List.length = [1] ∧
      log.store.lastVersion "order#7" = 2 ∧ log.ours = 2 ∧
        r.names.streamOf typeName "7" = .ok "order#7" := by
    decide +kernel
  obtain ⟨hsuccess, hattempts, hlengths, hversion, hdraws, hnamed⟩ := hrun
  have hraises : OnlyRaises (aggregateType OrderEvent) cancel := fun order attempt changed h =>
    ⟨[.cancelled ⟨none, none⟩], by rw [List.foldlM_cons, show order.raise _ _ = _ from h]; rfl⟩
  obtain ⟨-, -, -, -, front, final, -, -, -, -, hok⟩ := execute_at_most_once (r := r) rfl hraises
    (plain_orderEvent _) "7" .standard ⟨start, .empty, (), none, 0⟩ 0 [] _ rfl
  have hresult : r.execute (aggregateType OrderEvent) "7" .standard cancel
      (⟨start, .empty, (), none, 0⟩, 0) = result := rfl
  rw [hresult] at hok
  clear_value result
  obtain ⟨saved, hsaved⟩ : ∃ saved, result.1.toExcept = .ok saved := by
    cases hended : result.1 with
    | success saved => exact ⟨saved, rfl⟩
    | failed e =>
        rw [hended] at hsuccess
        cases hsuccess
    | permanentFailure e =>
        rw [hended] at hsuccess
        cases hsuccess
  obtain ⟨stream, n, a, changed, events, hstream, -, -, -, -, -, hchanges, hleft⟩ :=
    hok saved hsaved
  obtain rfl : "order#7" = stream := Except.ok.inj (hnamed.symm.trans hstream)
  obtain ⟨-, -, hnone, -⟩ | ⟨-, -, hstored, hafter⟩ := hleft
  · rw [show log.stored = [] from hnone] at hlengths
    cases hlengths
  · have hbatch : events.length = 1 := by
      rw [show log.stored = [outgoing changed] from hstored] at hlengths
      have hlength := (List.cons.inj hlengths).1
      rwa [outgoing, List.length_map, hchanges, List.length_map] at hlength
    have hturn : start.turn (n + 1) = [] ∨ n = 0 := by
      cases n with
      | zero => exact .inr rfl
      | succ n => exact .inl rfl
    have halone : start.alone countingSupply (n + 2) = start.alone countingSupply 2 := by
      unfold Shared.alone
      rw [List.take_of_length_le (by simp [start, Shared.opened])]
      rfl
    have hfresh : FreshAlong countingSupply (start.turn (n + 1))
        (start.alone countingSupply (n + 1)) := by
      obtain hnone | rfl := hturn
      · rw [hnone]
        trivial
      · exact ⟨⟨by decide, by decide⟩, trivial⟩
    have hspared : ∀ call ∈ start.turn (n + 1), call ≠ .delete "order#7" := by
      obtain hnone | rfl := hturn
      · rw [hnone]
        exact List.forall_mem_nil _
      · simp [start, Shared.turn, Shared.opened]
    have hdraw : (ours (log.ours - 1)).FreshFor (start.alone countingSupply (n + 2)).store
        events.length := by
      rw [hdraws, halone, hbatch]
      exact ⟨by decide, by decide⟩
    obtain ⟨added, hread, hadded⟩ := (hafter hspared).2 hfresh hdraw
    exact ⟨hsuccess, hattempts, hlengths, hversion, n + 1, outgoing changed, added, hstored, hread,
      hadded⟩

end Repository

end EventLog
