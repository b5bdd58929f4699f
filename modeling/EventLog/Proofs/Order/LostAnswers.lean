/-
# Changes are stored at most once, heard of or not

A client whose save was given up cannot tell whether its changes were stored. It keeps them,
and it keeps the version they rest on; so if it saves again, the same changes are sent a
second time. What stops them is the version check alone: if the first save took effect, the
stream is past the version that the client expects, and it will not come back to it
(`Desk.Overtaken`).

`Order.at_most_once` says that no change is stored twice, however many answers are lost and
wherever, and that the stream is what the ledger of the saves says.
-/

import EventLog.Proofs.Order.Drafts
import EventLog.Proofs.Store.CompareAndSwap

namespace EventLog

variable {ε η ω : Type} [EventType ε] [Includes OrderEvent ε] [DecidableEq η]

namespace Desk

variable {r : Repository ε (Disturbed ε) η ω} {supply : Nat → Draw} {id stream : String}
  {c : Desk ε η ω}

/-! ## After an answer is lost -/

/-- The stream has gone past the order of this client, which has these changes pending and
perhaps more. -/
def Overtaken (stream : String) (client : Nat) (pending : List (Envelope ε)) (s : Store)
    (drafts : Nat → Option (Draft ε)) : Prop :=
  ∃ draft, drafts client = some draft ∧ pending <+: draft.order.changes ∧
    draft.order.originalVersion < (s.members stream).length

section Runs

variable (hbackend : r.backend = Disturbed.backend supply)
  (hstream : r.names.streamOf Order.typeName id = .ok stream)
include hbackend hstream

omit hbackend hstream [DecidableEq η] in
theorem Overtaken.effect {client : Nat} {pending : List (Envelope ε)} {s : DeskStep}
    {after : Store} {drafts : Nat → Option (Draft ε)} {issued : Nat} {ledger : List (Commit ε)}
    (h : Overtaken stream client pending c.store c.drafts) (hsound : c.store.Sound)
    (hkeeps : s.Keeps client)
    (heffect : Effect supply id stream c s after drafts issued ledger) :
    Overtaken stream client pending after drafts := by
  obtain ⟨draft, held, hpending, hlt⟩ := h
  have hothers : ∀ {who : Nat} {new : Draft ε}, who ≠ client →
      Function.update c.drafts who (some new) client = some draft :=
    fun hne => (Function.update_of_ne hne.symm _ _).trans held
  cases heffect with
  | idle => exact ⟨draft, held, hpending, hlt⟩
  | @begun _ who anew =>
      have hne : who ≠ client := by
        rintro rfl
        exact anew.elim hkeeps.1 hkeeps.2
      exact ⟨draft, hothers hne, hpending, hlt⟩
  | @loaded who _ =>
      have hne : who ≠ client := by
        rintro rfl
        exact hkeeps.2 rfl
      exact ⟨draft, hothers hne, hpending, hlt⟩
  | @handled who _ _ changing order held' accepted =>
      by_cases heq : who = client
      · subst heq
        obtain rfl : draft = changing := Option.some.inj (held.symm.trans held')
        obtain ⟨e, -, rfl⟩ := Order.handle_eq_ok_iff.mp accepted
        exact ⟨_, Function.update_self _ _ _, hpending.trans (List.prefix_append _ _), hlt⟩
      · exact ⟨draft, hothers heq, hpending, hlt⟩
  | @committed who saving _ staged held' _ _ expectation _ answered =>
      have hne : who ≠ client := by
        rintro rfl
        obtain rfl : draft = saving := Option.some.inj (held.symm.trans held')
        rw [hsound.lastVersion_eq] at expectation
        omega
      have hgrown : (c.store.members stream).length ≤
          ((c.store.grown (c.draw supply).now stream staged).members stream).length := by
        rw [Store.members_grown, if_pos rfl, List.length_append]
        exact Nat.le_add_right _ _
      refine ⟨draft, ?_, hpending, by omega⟩
      rcases answered with rfl | rfl
      · exact held
      · exact hothers hne

theorem Overtaken.run (hsane : Sane id stream c) {client : Nat} {pending : List (Envelope ε)}
    (h : Overtaken stream client pending c.store c.drafts) {steps : List DeskStep}
    (hkeeps : ∀ s ∈ steps, s.Keeps client) :
    Overtaken stream client pending (c.run r id stream steps).store
      (c.run r id stream steps).drafts := by
  induction steps generalizing c with
  | nil => exact h
  | cons s rest ih =>
      have hstep := h.effect hsane.balanced.sound (hkeeps s List.mem_cons_self)
        (hsane.effect hbackend hstream s)
      exact ih (hsane.step hbackend hstream s) hstep
        fun other hother => hkeeps other (List.mem_cons_of_mem _ hother)

/-- A save whose answer was lost has taken effect, and the stream has gone past its order. -/
theorem overtaken_of_cancelled (hsane : Sane id stream c) {client : Nat} {draft : Draft ε}
    (held : c.drafts client = some draft) (hanswer : (c.save r draft).1 = .error .cancelled) :
    let after := c.step r id stream (.save client)
    stream ≠ "" ∧ draft.order.changes ≠ [] ∧
      after.ledger = c.ledger ++ [⟨draft.tickets, Repository.outgoing draft.order⟩] ∧
      Overtaken stream client draft.order.changes after.store after.drafts := by
  have hfits := hsane.balanced.fits client draft held
  have changed : draft.order.changes ≠ [] := by
    intro hnothing
    rw [save_of_no_changes hstream hfits.id_eq hnothing] at hanswer
    cases hanswer
  cases happend : c.store.append (c.draw supply) stream (Repository.outgoing draft.order)
      (some draft.order.originalVersion) with
  | error e =>
      -- No refusal is a cancellation.
      obtain ⟨hrefused, -⟩ := step_save_of_refused hbackend hstream hsane.lossy held hfits.id_eq
        changed happend
      obtain rfl : e = .cancelled := Except.error.inj (hrefused.symm.trans hanswer)
      cases Store.append_eq_error_iff.mp happend with
      | unencodable _ h =>
          obtain ⟨before, envelope, after, hbatch, -, hfails⟩ := h
          obtain ⟨payload, hpayload⟩ := hfits.encodable envelope (hbatch ▸ by simp)
          rw [hfails] at hpayload
          cases hpayload
  | ok result =>
      obtain ⟨-, hstore, -, hledger, hheard⟩ :=
        step_save_of_stored hbackend hstream hsane.lossy held hfits.id_eq changed happend
      obtain ⟨named, hmatches, staged, prepared, -, hgrown⟩ := Store.append_eq_ok_iff.mp happend
      refine ⟨named, changed, hledger, ?_⟩
      rcases hheard with ⟨hok, -⟩ | ⟨-, hdrafts⟩
      · rw [hok] at hanswer
        cases hanswer
      · have hpos := List.length_pos_of_ne_nil changed
        have hversion := versionMatches_some_iff.mp hmatches
        rw [hsane.balanced.sound.lastVersion_eq] at hversion
        rw [hstore, hdrafts, hgrown]
        refine ⟨draft, held, List.prefix_rfl, ?_⟩
        rw [Store.members_grown, if_pos rfl, List.length_append,
          Repository.length_saved prepared, hversion]
        push_cast
        omega

/-- The save of an order that does not rest on the whole stream is a conflict and changes
nothing. -/
theorem step_save_of_ne (hsane : Sane id stream c) (named : stream ≠ "") {client : Nat}
    {draft : Draft ε} (held : c.drafts client = some draft) (changed : draft.order.changes ≠ [])
    (hne : draft.order.originalVersion ≠ (c.store.members stream).length) :
    let after := c.step r id stream (.save client)
    (c.save r draft).1 = .error (.conflict stream (some draft.order.originalVersion)
        (c.store.members stream).length) ∧
      after.store = c.store ∧ after.drafts = c.drafts ∧ after.ledger = c.ledger := by
  have hfits := hsane.balanced.fits client draft held
  have happend : c.store.append (c.draw supply) stream (Repository.outgoing draft.order)
      (some draft.order.originalVersion) = .error (.conflict stream
        (some draft.order.originalVersion) (c.store.members stream).length) := by
    rw [← hsane.balanced.sound.lastVersion_eq] at hne ⊢
    exact Store.append_eq_error_iff.mpr (.moved named hfits.encodable rfl hne)
  obtain ⟨hanswer, -, hstore, hdrafts, -, hledger⟩ :=
    step_save_of_refused hbackend hstream hsane.lossy held hfits.id_eq changed happend
  exact ⟨hanswer, hstore, hdrafts, hledger⟩

/-- Pending changes are stored exactly if their order rests on the whole stream. -/
theorem ledger_step_save (hsane : Sane id stream c) (named : stream ≠ "") {client : Nat}
    {draft : Draft ε} (held : c.drafts client = some draft)
    (changed : draft.order.changes ≠ []) :
    (c.step r id stream (.save client)).ledger =
      if draft.order.originalVersion = (c.store.members stream).length then
        c.ledger ++ [⟨draft.tickets, Repository.outgoing draft.order⟩]
      else c.ledger := by
  have hfits := hsane.balanced.fits client draft held
  by_cases hwhole : draft.order.originalVersion = (c.store.members stream).length
  · obtain ⟨staged, prepared⟩ := Staged.exists_ofEnvelopes (c.draw supply) 0 hfits.encodable
    have hmatches : versionMatches (some draft.order.originalVersion)
        (c.store.lastVersion stream) := by
      rw [hsane.balanced.sound.lastVersion_eq]
      exact versionMatches_some_iff.mpr hwhole
    have happend := Store.append_eq_ok_iff.mpr ⟨named, hmatches, staged, prepared, rfl, rfl⟩
    obtain ⟨-, -, -, hledger, -⟩ :=
      step_save_of_stored hbackend hstream hsane.lossy held hfits.id_eq changed happend
    rw [if_pos hwhole, hledger]
  · rw [if_neg hwhole]
    exact (step_save_of_ne hbackend hstream hsane named held changed hwhole).2.2.2

/-- An order that the stream has gone past is not saved any more. -/
theorem save_of_overtaken (hsane : Sane id stream c) (named : stream ≠ "") {client : Nat}
    {pending : List (Envelope ε)} (hpending : pending ≠ [])
    (h : Overtaken stream client pending c.store c.drafts) :
    let after := c.step r id stream (.save client)
    ∃ draft, c.drafts client = some draft ∧ pending <+: draft.order.changes ∧
      (c.save r draft).1 = .error (.conflict stream (some draft.order.originalVersion)
        (c.store.members stream).length) ∧
      after.store = c.store ∧ after.drafts = c.drafts ∧ after.ledger = c.ledger := by
  obtain ⟨draft, held, hprefix, hlt⟩ := h
  have changed : draft.order.changes ≠ [] := fun hnil =>
    hpending (List.prefix_nil.mp (hnil ▸ hprefix))
  exact ⟨draft, held, hprefix,
    step_save_of_ne hbackend hstream hsane named held changed (Int.ne_of_lt hlt)⟩

/-! ## What can be read -/

omit hbackend hstream [DecidableEq η] in
/-- The stream reads as before, and then comes what a step has put into the ledger. -/
theorem Effect.read {s : DeskStep} {after : Store} {drafts : Nat → Option (Draft ε)}
    {issued : Nat} {ledger : List (Commit ε)}
    (h : Effect supply id stream c s after drafts issued ledger) (hsound : c.store.Sound)
    (fresh : (c.draw supply).FreshFor c.store (c.drawn s)) :
    ∃ commits added, ledger = c.ledger ++ commits ∧
      after.read stream = c.store.read stream ++ added ∧
      ∀ final : Store, List.Forall₂ (Entry.ReadsAs final)
        ((commits.flatMap Commit.batch).map Entry.given) added := by
  cases h with
  | @committed client draft _ staged held _ _ _ prepared _ =>
      have hdrawn : c.drawn (.save client) = (Repository.outgoing draft.order).length := by
        rw [drawn, held, Repository.outgoing, List.length_map]
        rfl
      rw [hdrawn] at fresh
      refine ⟨[⟨draft.tickets, Repository.outgoing draft.order⟩], _, rfl,
        Store.read_grown (Store.accepts_of_freshFor fresh prepared) hsound _ _, fun final => ?_⟩
      rw [List.flatMap_singleton]
      exact Store.readsAs_of_ofEnvelopes final prepared _ _
  | _ =>
      exact ⟨[], [], (List.append_nil _).symm, (List.append_nil _).symm, fun _ => .nil⟩

theorem read_run (hsane : Sane id stream c) {steps : List DeskStep}
    (fresh : c.FreshAlong r supply id stream steps) :
    ∃ commits added, (c.run r id stream steps).ledger = c.ledger ++ commits ∧
      (c.run r id stream steps).store.read stream = c.store.read stream ++ added ∧
      ∀ final : Store, List.Forall₂ (Entry.ReadsAs final)
        ((commits.flatMap Commit.batch).map Entry.given) added := by
  induction steps generalizing c with
  | nil => exact ⟨[], [], (List.append_nil _).symm, (List.append_nil _).symm, fun _ => .nil⟩
  | cons s rest ih =>
      obtain ⟨hdraw, hrest⟩ := fresh
      obtain ⟨commits, added, hledger, hread, hadded⟩ :=
        (hsane.effect hbackend hstream s).read hsane.balanced.sound hdraw
      obtain ⟨others, more, hledgers, hreads, hmore⟩ :=
        ih (hsane.step hbackend hstream s) hrest
      refine ⟨commits ++ others, added ++ more, ?_, ?_, fun final => ?_⟩
      · rw [← List.append_assoc, ← hledger]
        exact hledgers
      · rw [← List.append_assoc, ← hread]
        exact hreads
      · rw [List.flatMap_append, List.map_append]
        exact List.rel_append (hadded final) (hmore final)

end Runs

end Desk

namespace Order

variable {r : Repository ε (Disturbed ε) η ω} {supply : Nat → Draw} {id stream : String}

/-- Clients begin, load, change and save one order in any interleaving, every save expecting
the version that its order rests on; `earlier` is what had been done to the log before, and
`losses` says which of the appends that take effect are never answered.

Then no pending change is ever stored twice, and a save stores the pending changes exactly if
the stream is no longer than what the order rests on. A save that was given up has stored its
changes; from then on, until the client begins or loads the order anew, every save of it is a
conflict, changes nothing, and leaves it its pending changes. And the stream is what it was
before, with the saves that were stored behind it, one after another, each complete and in its
order; for the bodies of the events, identifiers have to be drawn afresh. -/
theorem at_most_once (hbackend : r.backend = Disturbed.backend supply)
    (hstream : r.names.streamOf typeName id = .ok stream) (w : World (Disturbed ε) η ω)
    (earlier : List (LogCall ε)) (losses : List Bool) (steps : List DeskStep) :
    let memory := (converse (Memory.access supply) earlier .empty).2
    let start : Desk ε η ω := .opened { w with backend := .losing memory losses }
    let c := start.run r id stream steps
    ((c.ledger.flatMap Commit.tickets).Nodup ∧
      ∀ commit ∈ c.ledger, commit.tickets.length = commit.batch.length) ∧
    (∀ client draft, c.drafts client = some draft → draft.order.changes ≠ [] → stream ≠ "" →
      (c.step r id stream (.save client)).ledger =
        if draft.order.originalVersion = (c.store.members stream).length then
          c.ledger ++ [⟨draft.tickets, Repository.outgoing draft.order⟩]
        else c.ledger) ∧
    (∀ client draft, c.drafts client = some draft → (c.save r draft).1 = .error .cancelled →
      let lost := c.step r id stream (.save client)
      lost.ledger = c.ledger ++ [⟨draft.tickets, Repository.outgoing draft.order⟩] ∧
      ∀ later : List DeskStep, (∀ s ∈ later, s.Keeps client) →
        let c' := lost.run r id stream later
        let after := c'.step r id stream (.save client)
        ∃ kept, c'.drafts client = some kept ∧ draft.order.changes <+: kept.order.changes ∧
          (c'.save r kept).1 = .error (.conflict stream (some kept.order.originalVersion)
            (c'.store.members stream).length) ∧
          after.store = c'.store ∧ after.drafts = c'.drafts ∧ after.ledger = c'.ledger) ∧
    (start.FreshAlong r supply id stream steps → ∃ added,
      c.store.read stream = start.store.read stream ++ added ∧
        List.Forall₂ (Entry.ReadsAs c.store) ((c.ledger.flatMap Commit.batch).map Entry.given)
          added) := by
  intro memory start c
  have hstart : start.Sane id stream := Desk.sane_opened supply id stream w earlier losses
  have hsane : c.Sane id stream := hstart.run hbackend hstream steps
  refine ⟨⟨hsane.balanced.nodup, hsane.balanced.length_tickets⟩,
    fun client draft held changed named =>
      Desk.ledger_step_save hbackend hstream hsane named held changed,
    fun client draft held hanswer => ?_, fun fresh => ?_⟩
  · obtain ⟨named, changed, hledger, hovertaken⟩ :=
      Desk.overtaken_of_cancelled hbackend hstream hsane held hanswer
    refine ⟨hledger, fun later hlater => ?_⟩
    have hlost := hsane.step hbackend hstream (.save client)
    exact Desk.save_of_overtaken hbackend hstream (hlost.run hbackend hstream later) named changed
      (hovertaken.run hbackend hstream hlost hlater)
  · obtain ⟨commits, added, hledger, hread, hadded⟩ :=
      Desk.read_run hbackend hstream hstart fresh
    replace hledger : c.ledger = commits := hledger
    rw [hledger]
    exact ⟨added, hread, hadded c.store⟩

/-- A client creates an order and never hears that it was stored. It goes on with what it has,
and so does another client that begins the same order; neither is saved. -/
theorem at_most_once_given_up :
    let r : Repository OrderEvent (Disturbed OrderEvent) Nat Unit :=
      ⟨Disturbed.backend countingSupply, ⟨.ofList [(typeName, typeHashId)]⟩, catalog OrderEvent,
        fun _ _ listeners => (listeners, []), some 1000⟩
    let start : Desk OrderEvent Nat Unit :=
      .opened ⟨Disturbed.losing .empty [true], .empty, (), none, 0⟩
    let steps : List DeskStep := [.begin 0, .handle 0 .epoch (.create .nil [⟨.nil, 1⟩])]
    let later : List DeskStep :=
      [.handle 0 .epoch (.updateItems [⟨.nil, 2⟩] none), .begin 1,
        .handle 1 .epoch (.create .nil [⟨.nil, 3⟩]), .save 1]
    let c := start.run r "7" "order#7" steps
    let c' := (c.step r "7" "order#7" (.save 0)).run r "7" "order#7" later
    let all := start.run r "7" "order#7" (steps ++ .save 0 :: later)
    (∃ draft, c.drafts 0 = some draft ∧ (c.save r draft).1 = .error .cancelled) ∧
    (∃ kept, c'.drafts 0 = some kept ∧ kept.order.changes.length = 2 ∧
      (c'.save r kept).1 = .error (.conflict "order#7" (some 0) 1)) ∧
    all.ledger.map Commit.tickets = [[0]] ∧
    ∃ added, all.store.read "order#7" = start.store.read "order#7" ++ added ∧
      List.Forall₂ (Entry.ReadsAs all.store) ((all.ledger.flatMap Commit.batch).map Entry.given)
        added := by
  intro r start steps later c c' all
  have hstream : r.names.streamOf typeName "7" = .ok "order#7" := by decide +kernel
  have hfirst := at_most_once rfl hstream ⟨Disturbed.losing .empty [], .empty, (), none, 0⟩ []
    [true] steps
  have hall := at_most_once rfl hstream ⟨Disturbed.losing .empty [], .empty, (), none, 0⟩ [] [true]
    (steps ++ .save 0 :: later)
  have hfresh : start.FreshAlong r countingSupply "7" "order#7" (steps ++ .save 0 :: later) := by
    refine ⟨⟨?_, ?_⟩, ⟨?_, ?_⟩, ⟨?_, ?_⟩, ⟨?_, ?_⟩, ⟨?_, ?_⟩, ⟨?_, ?_⟩, ⟨?_, ?_⟩, trivial⟩ <;> decide
  obtain ⟨-, hlater⟩ := hfirst.2.2.1 0 _ rfl rfl
  obtain ⟨kept, hkept, -, hconflict, -⟩ := hlater later (by simp [later, DeskStep.Keeps])
  obtain ⟨held, hheld, hpending, hversion⟩ : ∃ held, c'.drafts 0 = some held ∧
      held.order.changes.length = 2 ∧ held.order.originalVersion = 0 := ⟨_, rfl, rfl, rfl⟩
  obtain rfl : held = kept := Option.some.inj (hheld.symm.trans hkept)
  have hlength : ((c'.store.members "order#7").length : Int) = 1 := by decide
  have hanswer : (c'.save r held).1 = .error (.conflict "order#7"
      (some held.order.originalVersion) (c'.store.members "order#7").length) := hconflict
  rw [hversion, hlength] at hanswer
  exact ⟨⟨_, rfl, rfl⟩, ⟨held, hheld, hpending, hanswer⟩, rfl, hall.2.2.2 hfresh⟩

end Order

end EventLog
