/-
# Aggregates do not see each other

Different aggregates live in different streams, provided their types are told apart by the rule
that names the streams. Streams share much, but nothing through which one could be seen from
another (`Store.AgreeOn`), so whatever is done to the stream of one aggregate, every question about
another is answered as before, and so is a load.
-/

import EventLog.Order.Event
import EventLog.Proofs.Repository.InMemory
import EventLog.Proofs.Store.Agreement
import EventLog.Proofs.StreamNames

namespace EventLog

variable {ε η ω σ : Type} [EventType ε]

namespace Repository

variable {r : Repository ε Memory η ω} {supply : Nat → Draw} {type : AggregateType ε σ}
  {stream id : String}

/-- What is loaded depends on nothing but the stream. -/
theorem load_congr (hbackend : r.backend = Memory.backend supply)
    (hstream : r.names.streamOf type.name id = .ok stream) {before after : Memory}
    (h : before.store.AgreeOn stream after.store) (w : World Memory η ω) :
    (r.load type id { w with backend := after }).1 =
      (r.load type id { w with backend := before }).1 := by
  by_cases named : stream = ""
  · subst named
    rw [load, load, hstream]
    rfl
  · have hread : (after.store.read stream : List (Envelope ε)) = before.store.read stream :=
      h.query_eq rfl
    rw [load_answer hbackend hstream named, load_answer hbackend hstream named, hread]

/-- Two different aggregates whose streams are named by the standard rule, and whose types, if
they differ, are told apart by it, have different streams. Whatever the log has been through, and
whatever is then appended to the stream of the first, linked to it or deleted, the version of the
second's stream does not change; and as long as identifiers are drawn afresh, neither does any
answer about it, under any filters, nor what is loaded of the second, by any repository with these
names. -/
theorem isolated {names : StreamNames} {type₁ type₂ id₁ id₂ : String}
    (hfirst : names.rules.get? type₁ = some typeHashId)
    (hsecond : names.rules.get? type₂ = some typeHashId) (hne : (type₁, id₁) ≠ (type₂, id₂))
    (hseparate : type₁ ≠ type₂ → SeparateTypes type₁ type₂) :
    ∃ first second, names.streamOf type₁ id₁ = .ok first ∧ names.streamOf type₂ id₂ = .ok second ∧
      first ≠ second ∧
      ∀ (supply : Nat → Draw) (earlier calls : List (LogCall ε)),
        (∀ call ∈ calls, call.Writes first) →
          let before := (converse (Memory.access supply) earlier .empty).2
          let after := (converse (Memory.access supply) calls before).2
          after.store.lastVersion second = before.store.lastVersion second ∧
          (FreshAlong supply calls before →
            Memory.AnswersAlike ε supply second before after ∧
            ∀ (r : Repository ε Memory η ω) (type : AggregateType ε σ) (w : World Memory η ω),
              r.backend = Memory.backend supply → r.names = names → type.name = type₂ →
                (r.load type id₂ { w with backend := after }).1 =
                  (r.load type id₂ { w with backend := before }).1) := by
  have hstreams := typeHashId_ne hne hseparate
  refine ⟨_, _, StreamNames.streamOf_eq_ok hfirst id₁, StreamNames.streamOf_eq_ok hsecond id₂,
    hstreams, fun supply earlier calls hcalls => ?_⟩
  intro before after
  -- A call writes to one stream at most.
  have hothers : ∀ call ∈ calls, ¬ call.Writes (typeHashId type₂ id₂) :=
    fun call hcall hwrites => hstreams ((hcalls call hcall).unique hwrites)
  refine ⟨Memory.lastVersion_converse hothers, fun fresh => ?_⟩
  have hsound : before.store.Sound := Memory.sound_converse supply Memory.sound_empty earlier
  have hagree := Memory.agreeOn_converse hsound hothers fresh
  refine ⟨Memory.answersAlike_of_agreeOn hagree, ?_⟩
  rintro r type w hbackend rfl rfl
  exact load_congr hbackend (StreamNames.streamOf_eq_ok hsecond id₂) hagree w

/-- An order whose identifier holds a hash sign, and an aggregate of a type called much the same:
the order's stream is written to, linked to from elsewhere and deleted, and the other is loaded as
before. -/
theorem isolated_hash_in_id :
    let note : Envelope OrderEvent := .fresh "" (.raw "Noted" "")
    let names : StreamNames := ⟨.ofList [("Order", typeHashId), ("Orders", typeHashId)]⟩
    let r : Repository OrderEvent Memory Nat Unit :=
      ⟨Memory.backend countingSupply, names, .empty, fun _ _ listeners => (listeners, []), none⟩
    let orders : AggregateType OrderEvent Nat := ⟨"Orders", 0, .empty "Orders"⟩
    let earlier : List (LogCall OrderEvent) :=
      [.append "order#s#1" [note, note] none, .append "orders#1" [note] none]
    let calls : List (LogCall OrderEvent) :=
      [.append "order#s#1" [note] (some 2), .link "order#s#1" [.ofNat 1000] none,
        .delete "order#s#1"]
    let before := (converse (Memory.access countingSupply) earlier .empty).2
    let after := (converse (Memory.access countingSupply) calls before).2
    let w : World Memory Nat Unit := ⟨before, .empty, (), none, 0⟩
    names.streamOf "Order" "s#1" = .ok "order#s#1" ∧
      names.streamOf "Orders" "1" = .ok "orders#1" ∧
      after.store.lastVersion "orders#1" = before.store.lastVersion "orders#1" ∧
      (r.load orders "1" { w with backend := after }).1 = (r.load orders "1" w).1 := by
  intro note names r orders earlier calls before after w
  have hseparate : SeparateTypes "Order" "Orders" := by
    constructor <;> decide +kernel
  have hname : typeHashId "Order" "s#1" = "order#s#1" := by decide +kernel
  have hotherName : typeHashId "Orders" "1" = "orders#1" := by decide +kernel
  have hfirst : names.rules.get? "Order" = some typeHashId := rfl
  have hsecond : names.rules.get? "Orders" = some typeHashId := rfl
  have hne : ("Order", "s#1") ≠ ("Orders", "1") := by decide
  have hstream : names.streamOf "Order" "s#1" = .ok "order#s#1" := by
    rw [StreamNames.streamOf_eq_ok hfirst, hname]
  have hother : names.streamOf "Orders" "1" = .ok "orders#1" := by
    rw [StreamNames.streamOf_eq_ok hsecond, hotherName]
  obtain ⟨first, second, hstream', hother', -, hisolated⟩ :=
    isolated (ε := OrderEvent) (η := Nat) (ω := Unit) (σ := Nat) hfirst hsecond hne
      fun _ => hseparate
  cases hstream.symm.trans hstream'
  cases hother.symm.trans hother'
  have hcalls : ∀ call ∈ calls, call.Writes "order#s#1" := by
    simp [calls, LogCall.Writes]
  have hfresh : FreshAlong countingSupply calls before := by
    refine ⟨⟨?_, ?_⟩, ⟨?_, ?_⟩, ⟨?_, ?_⟩, trivial⟩ <;> decide
  obtain ⟨hversion, hanswers⟩ := hisolated countingSupply earlier calls hcalls
  refine ⟨hstream, hother, ?_, (hanswers hfresh).2 r orders w rfl rfl rfl⟩
  simpa only [before, after] using hversion

end Repository

end EventLog
