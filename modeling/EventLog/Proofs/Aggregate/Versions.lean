/-
# What the two versions of an aggregate count

Five things are done to an aggregate, and each treats its two versions and its pending changes
by a rule of its own. History that is replayed moves both versions, an envelope that is applied
as new only the current one; an envelope that is applied otherwise moves neither. Forgetting the
pending changes leaves the versions alone, a save brings them together. Each of these may fail,
and a replay may fail half way.

`Aggregate.marks` tells what a move has done without looking at a version: which envelope was
applied as new, how many a replay has applied, how many changes a save has stored.
`Mark.Turns` is what a mark says of the aggregate before and after it, and `make_cases` that
every move leaves one mark of which this is true, or none and has moved nothing. The account of a
whole run, `Accounts`, is the sum of its marks.

The versions and the pending changes are counted from different marks. What is pending starts
over wherever the changes are dropped, and the distance between the versions wherever these are
brought together. So the two agree as long as the one does not happen without the other.
-/

import EventLog.Order.CommandHandler
import EventLog.Proofs.Aggregate.Applying
import EventLog.Proofs.Calls
import Mathlib.Data.List.DropRight

namespace EventLog

/-- What is done to an aggregate: it is given a command or an envelope, history is replayed, its
pending changes are forgotten, or it is saved to some repository. -/
inductive Move (ε κ β η ω : Type) where
  | command (command : κ)
  | apply (envelope : Envelope ε) (isNew : Bool)
  | rebuild (history : List (Envelope ε))
  | clearChanges
  | save (r : Repository ε β η ω) (expected : Option Int) (w : World β η ω)

/-- A trace that a move leaves. -/
inductive Mark (ε : Type) where
  /-- The envelope was applied as new. -/
  | added (envelope : Envelope ε)
  /-- So many envelopes of a history were applied. -/
  | rebuilt (count : Nat)
  | cleared
  /-- A save succeeded while so many changes were pending. -/
  | saved (pending : Nat)

namespace Mark

variable {ε σ : Type}

def added? : Mark ε → Option (Envelope ε)
  | added envelope => some envelope
  | _ => none

/-- The two versions were brought together. -/
def isBaseline : Mark ε → Bool
  | rebuilt count => count ≠ 0
  | saved pending => pending ≠ 0
  | _ => false

/-- The pending changes were dropped. -/
def isEmptying : Mark ε → Bool
  | cleared => true
  | saved _ => true
  | _ => false

/-- The envelopes applied as new since the last mark of a kind, or since the beginning. -/
def addedSince (kind : Mark ε → Bool) (marks : List (Mark ε)) : List (Envelope ε) :=
  (marks.rtakeWhile fun mark => !kind mark).filterMap added?

theorem addedSince_concat (kind : Mark ε → Bool) (marks : List (Mark ε)) (mark : Mark ε) :
    addedSince kind (marks ++ [mark]) =
      if kind mark then [] else addedSince kind marks ++ mark.added?.toList := by
  by_cases h : kind mark = true
  · rw [if_pos h, addedSince, List.rtakeWhile_concat_neg _ _ _ (by simp [h])]
    rfl
  · rw [if_neg h, addedSince, List.rtakeWhile_concat_pos _ _ _ (by simp [h]),
      List.filterMap_append]
    cases hadded : mark.added? <;> simp [addedSince, hadded]

/-- A mark of one of these kinds adds nothing. -/
theorem added?_of_kind {mark : Mark ε}
    (h : mark.isBaseline = true ∨ mark.isEmptying = true) : mark.added? = none := by
  cases mark with
  | added envelope => simp [isBaseline, isEmptying] at h
  | _ => rfl

/-- What a mark says of the versions and the pending changes before and after it. -/
structure Turns (mark : Mark ε) (a b : Aggregate ε σ) : Prop where
  versions : b.currentVersion - b.originalVersion =
    if mark.isBaseline then 0
    else a.currentVersion - a.originalVersion + mark.added?.toList.length
  changes : b.changes = if mark.isEmptying then [] else a.changes ++ mark.added?.toList

end Mark

namespace Aggregate

/-! ## The account of a run -/

section Account

variable {ε σ : Type} {marks : List (Mark ε)} {mark : Mark ε} {a b : Aggregate ε σ}

/-- The versions and the pending changes are what these marks make of a new aggregate. -/
structure Accounts (marks : List (Mark ε)) (a : Aggregate ε σ) : Prop where
  versions : a.currentVersion - a.originalVersion = (Mark.addedSince Mark.isBaseline marks).length
  changes : a.changes = Mark.addedSince Mark.isEmptying marks

theorem Accounts.of_new (type : AggregateType ε σ) (id : String) : Accounts [] (new type id) :=
  ⟨rfl, rfl⟩

theorem Accounts.concat (h : Accounts marks a) (hmark : mark.Turns a b) :
    Accounts (marks ++ [mark]) b := by
  constructor
  · rw [Mark.addedSince_concat, hmark.versions, h.versions]
    split
    · rfl
    · rw [List.length_append, Int.natCast_add]
  · rw [Mark.addedSince_concat, hmark.changes, h.changes]

/-- The current version is ahead by the pending changes. -/
def Balanced (a : Aggregate ε σ) : Prop :=
  a.currentVersion = a.originalVersion + a.changes.length

/-- The balance is kept by a mark that brings the versions together if and only if it drops the
changes, and by any mark at all while no changes are pending. -/
theorem Balanced.turn (h : a.Balanced) (hmark : mark.Turns a b)
    (hkinds : mark.isBaseline ≠ mark.isEmptying → a.changes = []) : b.Balanced := by
  obtain ⟨hversions, hchanges⟩ := hmark
  have hadded := mark.added?_of_kind
  unfold Balanced at h ⊢
  cases hbaseline : mark.isBaseline <;> cases hemptying : mark.isEmptying <;>
    simp_all <;> omega

end Account

variable {ε σ κ β η ω : Type} [EventType ε] [DecidableEq η]

/-! ## One operation -/

section Operations

variable {type : AggregateType ε σ} {a b : Aggregate ε σ} {envelope : Envelope ε}

theorem turns_added (h : a.apply type envelope true = .ok b) :
    (Mark.added envelope).Turns a b := by
  obtain ⟨state, -, rfl⟩ := apply_eq_ok_iff.mp h
  constructor
  · simp only [Mark.isBaseline, Mark.added?, Option.toList_some, List.length_singleton, if_true,
      Bool.false_eq_true, if_false]
    omega
  · rfl

variable (type) in
/-- How many envelopes of a history a replay applies. -/
def applied (a : Aggregate ε σ) : List (Envelope ε) → Nat
  | [] => 0
  | envelope :: rest =>
    match a.replayOne type envelope with
    | .error _ => 0
    | .ok next => next.applied rest + 1

variable (type) in
/-- A replay that applies something brings the versions together, and any other does nothing.
Either way the pending changes stay. -/
theorem rebuild_cases (a : Aggregate ε σ) (history : List (Envelope ε)) :
    (a.rebuild type history).2.changes = a.changes ∧
      if a.applied type history = 0 then (a.rebuild type history).2 = a
      else (a.rebuild type history).2.originalVersion =
        (a.rebuild type history).2.currentVersion := by
  induction history generalizing a with
  | nil => exact ⟨rfl, rfl⟩
  | cons envelope rest ih =>
      rw [rebuild, applied]
      cases hone : a.replayOne type envelope with
      | error e => exact ⟨rfl, rfl⟩
      | ok next =>
          obtain ⟨state, -, rfl⟩ := replayOne_eq_ok_iff.mp hone
          obtain ⟨hkept, hrest⟩ := ih ⟨a.id, a.currentVersion + 1, a.currentVersion + 1, a.changes,
            state⟩
          dsimp only
          refine ⟨hkept, ?_⟩
          rw [if_neg (Nat.succ_ne_zero _)]
          -- The rest may apply nothing, and then it is the first envelope that counts.
          split at hrest
          · rw [hrest]
          · exact hrest

theorem turns_rebuilt (a : Aggregate ε σ) (history : List (Envelope ε)) :
    (Mark.rebuilt (a.applied type history) : Mark ε).Turns a (a.rebuild type history).2 := by
  obtain ⟨hchanges, hversions⟩ := a.rebuild_cases type history
  constructor
  · by_cases hnone : a.applied type history = 0
    · rw [if_pos hnone] at hversions
      simp [Mark.isBaseline, Mark.added?, hnone, hversions]
    · rw [if_neg hnone] at hversions
      simp [Mark.isBaseline, hnone, hversions]
  · simpa [Mark.isEmptying, Mark.added?] using hchanges

omit [EventType ε] in
theorem turns_cleared (a : Aggregate ε σ) : (Mark.cleared : Mark ε).Turns a a.clearChanges := by
  constructor
  · simp [Mark.isBaseline, Mark.added?, clearChanges]
  · rfl

/-- A save that fails leaves the aggregate as it was. -/
theorem save_of_refusal {r : Repository ε β η ω} {expected : Option Int} {w : World β η ω}
    {e : Error} (h : (r.save type a expected w).1 = .error e) :
    (r.save type a expected w).2.1 = a := by
  rw [Repository.save] at h ⊢
  cases hstream : r.names.streamOf type.name a.id with
  | error cause => rfl
  | ok stream =>
      rw [hstream] at h
      dsimp only at h ⊢
      split
      · rfl
      · rename_i hchanges
        rw [if_neg hchanges] at h
        rcases hanswer : r.bounded _ w with ⟨cause | stored, after⟩
        · rfl
        · rw [hanswer] at h
          cases h

theorem turns_saved {r : Repository ε β η ω} {expected : Option Int} {w : World β η ω}
    (h : (r.save type a expected w).1 = .ok ()) :
    (Mark.saved a.changes.length : Mark ε).Turns a (r.save type a expected w).2.1 := by
  rw [Repository.save] at h ⊢
  cases hstream : r.names.streamOf type.name a.id with
  | error cause =>
      rw [hstream] at h
      cases h
  | ok stream =>
      rw [hstream] at h
      dsimp only at h ⊢
      by_cases hchanges : a.changes = []
      · rw [if_pos (List.isEmpty_iff.mpr hchanges)]
        constructor <;> simp [Mark.isBaseline, Mark.isEmptying, Mark.added?, hchanges]
      · rw [if_neg (mt List.isEmpty_iff.mp hchanges)] at h ⊢
        rcases hanswer : r.bounded _ w with ⟨cause | stored, after⟩
        · rw [hanswer] at h
          cases h
        · constructor <;> simp [Mark.isBaseline, Mark.isEmptying, markSaved, hchanges]

end Operations

/-! ## Moves -/

section Moves

variable (type : AggregateType ε σ) (decide : κ → Aggregate ε σ → Except Error ε)

/-- Decide a command on an aggregate and raise the event it becomes. -/
def command (command : κ) (a : Aggregate ε σ) : Except Error (Aggregate ε σ) :=
  match decide command a with
  | .error e => .error e
  | .ok event => a.raise type event

/-- The answer to what was tried on an aggregate, and the aggregate afterwards. -/
def settle (a : Aggregate ε σ) : Except Error (Aggregate ε σ) → Except Error Unit × Aggregate ε σ
  | .error e => (.error e, a)
  | .ok after => (.ok (), after)

/-- Make a move. -/
def make (a : Aggregate ε σ) : Move ε κ β η ω → Except Error Unit × Aggregate ε σ
  | .command command => a.settle (a.command type decide command)
  | .apply envelope isNew => a.settle (a.apply type envelope isNew)
  | .rebuild history => a.rebuild type history
  | .clearChanges => (.ok (), a.clearChanges)
  | .save r expected w =>
    ((r.save type a expected w).1, (r.save type a expected w).2.1)

/-- An envelope applied as new leaves a mark unless it is refused. -/
def markAdded (a : Aggregate ε σ) (envelope : Envelope ε) : List (Mark ε) :=
  match a.apply type envelope true with
  | .error _ => []
  | .ok _ => [.added envelope]

/-- The marks that a move leaves. -/
def marks (a : Aggregate ε σ) : Move ε κ β η ω → List (Mark ε)
  | .command command =>
    match decide command a with
    | .error _ => []
    | .ok event => a.markAdded type (.fresh a.id (.typed event))
  | .apply envelope true => a.markAdded type envelope
  | .apply _ false => []
  | .rebuild history => [.rebuilt (a.applied type history)]
  | .clearChanges => [.cleared]
  | .save r expected w =>
    match (r.save type a expected w).1 with
    | .error _ => []
    | .ok () => [.saved a.changes.length]

/-- The aggregate after these moves. -/
def makeAll (a : Aggregate ε σ) : List (Move ε κ β η ω) → Aggregate ε σ
  | [] => a
  | move :: rest => (a.make type decide move).2.makeAll rest

/-- The marks of all these moves. -/
def allMarks (a : Aggregate ε σ) : List (Move ε κ β η ω) → List (Mark ε)
  | [] => []
  | move :: rest => a.marks type decide move ++ (a.make type decide move).2.allMarks rest

/-- The move drops changes only by saving them, and replays history only where there are
none. -/
def Permits (a : Aggregate ε σ) : Move ε κ β η ω → Prop
  | .clearChanges => False
  | .rebuild _ => a.changes = []
  | _ => True

/-- Each of these moves is permitted when it is made. -/
def PermitsAll (a : Aggregate ε σ) : List (Move ε κ β η ω) → Prop
  | [] => True
  | move :: rest => a.Permits move ∧ (a.make type decide move).2.PermitsAll rest

end Moves

section Runs

variable {type : AggregateType ε σ} {decide : κ → Aggregate ε σ → Except Error ε}
  {marks : List (Mark ε)} {a : Aggregate ε σ}

omit [EventType ε] in
theorem settle_of_error {outcome : Except Error (Aggregate ε σ)} {e : Error}
    (h : (a.settle outcome).1 = .error e) : (a.settle outcome).2 = a := by
  cases outcome with
  | error cause => rfl
  | ok after => cases h

/-- A move that fails leaves the aggregate as it was, unless it is a replay, which keeps what
came before the envelope that was refused. -/
theorem make_of_error {move : Move ε κ β η ω} {e : Error}
    (h : (a.make type decide move).1 = .error e) (hother : ∀ history, move ≠ .rebuild history) :
    (a.make type decide move).2 = a := by
  cases move with
  | command command => exact settle_of_error h
  | apply envelope isNew => exact settle_of_error h
  | rebuild history => exact absurd rfl (hother history)
  | clearChanges => cases h
  | save r expected w => exact save_of_refusal h

/-- What applying an envelope as new comes to. -/
theorem added_cases (type : AggregateType ε σ) (a : Aggregate ε σ) (envelope : Envelope ε) :
    (a.markAdded type envelope = [] ∧ (a.settle (a.apply type envelope true)).2 = a) ∨
      a.markAdded type envelope = [.added envelope] ∧
        (Mark.added envelope).Turns a (a.settle (a.apply type envelope true)).2 := by
  rw [markAdded]
  cases happly : a.apply type envelope true with
  | error e => exact .inl ⟨rfl, rfl⟩
  | ok after => exact .inr ⟨rfl, turns_added happly⟩

/-- A move leaves one mark, and the aggregate is what the mark says, or it leaves none and has
touched neither the versions nor the pending changes. -/
theorem make_cases (type : AggregateType ε σ) (decide : κ → Aggregate ε σ → Except Error ε)
    (a : Aggregate ε σ) (move : Move ε κ β η ω) :
    (∃ state, a.marks type decide move = [] ∧ (a.make type decide move).2 = { a with state }) ∨
      ∃ mark : Mark ε, a.marks type decide move = [mark] ∧
        mark.Turns a (a.make type decide move).2 := by
  cases move with
  | command command =>
      cases hdecided : decide command a with
      | error e =>
          refine .inl ⟨a.state, ?_⟩
          rw [Aggregate.marks, make, Aggregate.command, hdecided]
          exact ⟨rfl, rfl⟩
      | ok event =>
          have hadded := added_cases type a (.fresh a.id (.typed event))
          rw [Aggregate.marks, make, Aggregate.command, hdecided]
          exact hadded.imp (⟨a.state, ·⟩) (⟨_, ·⟩)
  | apply envelope isNew =>
      cases isNew with
      | true => exact (added_cases type a envelope).imp (⟨a.state, ·⟩) (⟨_, ·⟩)
      | false =>
          cases happly : a.apply type envelope false with
          | error e =>
              refine .inl ⟨a.state, rfl, ?_⟩
              rw [make, happly]
              rfl
          | ok after =>
              obtain ⟨state, -, rfl⟩ := apply_eq_ok_iff.mp happly
              refine .inl ⟨state, rfl, ?_⟩
              rw [make, happly]
              rfl
  | rebuild history => exact .inr ⟨_, rfl, turns_rebuilt a history⟩
  | clearChanges => exact .inr ⟨_, rfl, turns_cleared a⟩
  | save r expected w =>
      rw [Aggregate.marks, make]
      cases hanswer : (r.save type a expected w).1 with
      | error e => exact .inl ⟨a.state, rfl, save_of_refusal hanswer⟩
      | ok done => exact .inr ⟨_, rfl, turns_saved hanswer⟩

theorem Accounts.make (h : Accounts marks a) (move : Move ε κ β η ω) :
    Accounts (marks ++ a.marks type decide move) (a.make type decide move).2 := by
  obtain ⟨state, hmarks, hafter⟩ | ⟨mark, hmarks, hturns⟩ := make_cases type decide a move
  · rw [hmarks, hafter, List.append_nil]
    exact ⟨h.versions, h.changes⟩
  · rw [hmarks]
    exact h.concat hturns

theorem Accounts.makeAll (h : Accounts marks a) (moves : List (Move ε κ β η ω)) :
    Accounts (marks ++ a.allMarks type decide moves) (a.makeAll type decide moves) := by
  induction moves generalizing marks a with
  | nil => simpa [allMarks, Aggregate.makeAll] using h
  | cons move rest ih =>
      rw [allMarks, ← List.append_assoc]
      exact ih (h.make move)

/-- The mark of a permitted move brings the versions together if and only if it drops the
changes, or no changes are pending. -/
theorem Permits.kinds {move : Move ε κ β η ω} (h : a.Permits move) {mark : Mark ε}
    (hmark : a.marks type decide move = [mark]) (hkinds : mark.isBaseline ≠ mark.isEmptying) :
    a.changes = [] := by
  have hadded : ∀ envelope, a.markAdded type envelope ≠ [mark] := by
    intro envelope hmarks
    obtain ⟨hnone, -⟩ | ⟨hone, -⟩ := added_cases type a envelope
    · rw [hnone] at hmarks
      cases hmarks
    · rw [hone] at hmarks
      cases hmarks
      exact hkinds rfl
  cases move with
  | command command =>
      simp only [Aggregate.marks] at hmark
      split at hmark
      · cases hmark
      · exact absurd hmark (hadded _)
  | apply envelope isNew =>
      cases isNew with
      | true => exact absurd hmark (hadded envelope)
      | false => cases hmark
  | rebuild history => exact h
  | clearChanges => cases h
  | save r expected w =>
      simp only [Aggregate.marks] at hmark
      split at hmark
      · cases hmark
      · cases hmark
        simpa [Mark.isBaseline, Mark.isEmptying] using hkinds

theorem Balanced.make (h : a.Balanced) {move : Move ε κ β η ω} (hpermits : a.Permits move) :
    (a.make type decide move).2.Balanced := by
  obtain ⟨state, -, hafter⟩ | ⟨mark, hmark, hturns⟩ := make_cases type decide a move
  · rw [hafter]
    exact h
  · exact h.turn hturns (hpermits.kinds hmark)

theorem Balanced.makeAll (h : a.Balanced) {moves : List (Move ε κ β η ω)}
    (hpermits : a.PermitsAll type decide moves) : (a.makeAll type decide moves).Balanced := by
  induction moves generalizing a with
  | nil => exact h
  | cons move rest ih => exact ih (h.make hpermits.1) hpermits.2

end Runs

end Aggregate

/-! ## Commands for orders -/

namespace Order

variable {ε : Type} [EventType ε] [Includes OrderEvent ε]

/-- What an order decides on a command at a time. -/
def decision (command : Timestamp × OrderCommand) (order : Order ε) : Except Error ε :=
  match order.state.decide command.1 command.2 with
  | .error e => .error e.toError
  | .ok event => .ok (Includes.inject event)

/-- To handle a command is to decide it and to raise its event. -/
theorem handle_eq_command (now : Timestamp) (command : OrderCommand) (order : Order ε) :
    handle now command order =
      Aggregate.command (aggregateType ε) decision (now, command) order := by
  unfold handle Aggregate.command decision
  cases order.state.decide now command <;> rfl

end Order

/-! ## Whole runs -/

namespace Aggregate

variable {ε σ κ β η ω : Type} [EventType ε] [DecidableEq η]

/-- Whatever has been done to an aggregate since it was new, and whatever of it has failed: its
current version is ahead of the version it rests on by the number of envelopes applied as new
since the versions were last brought together, by a save of pending changes or by a replay that
applied something. Its pending changes are the envelopes applied as new, in order, since changes
were last dropped, by forgetting them or by a save. What fails leaves no trace, but for a replay.
If changes have only ever been dropped by saving them, and history has only been replayed while
there were none, the current version is ahead by the pending changes exactly. -/
theorem version_accounting (type : AggregateType ε σ)
    (decide : κ → Aggregate ε σ → Except Error ε) (id : String)
    (moves : List (Move ε κ β η ω)) :
    let fresh := new type id
    let a := fresh.makeAll type decide moves
    let marks := fresh.allMarks type decide moves
    a.currentVersion - a.originalVersion = (Mark.addedSince Mark.isBaseline marks).length ∧
    a.changes = Mark.addedSince Mark.isEmptying marks ∧
    (∀ (move : Move ε κ β η ω) (e : Error), (∀ history, move ≠ .rebuild history) →
      (a.make type decide move).1 = .error e → (a.make type decide move).2 = a) ∧
    (fresh.PermitsAll type decide moves →
      a.currentVersion = a.originalVersion + a.changes.length) := by
  intro fresh a marks
  have haccounts : Accounts ([] ++ marks) a := (Accounts.of_new type id).makeAll moves
  have hbalanced : fresh.Balanced := rfl
  exact ⟨haccounts.versions, haccounts.changes, fun move e hother h => make_of_error h hother,
    fun hpermits => hbalanced.makeAll hpermits⟩

open EventLog.Order (aggregateType decision typeName)

/-- An order that is created twice and saved in between, with a history that is replayed as far
as its first event only. -/
theorem version_accounting_broken_replay :
    let r : Repository OrderEvent Memory Nat Unit :=
      ⟨Memory.backend countingSupply, ⟨.ofList [(typeName, typeHashId)]⟩, .empty,
        fun _ _ listeners => (listeners, []), none⟩
    let moves : List (Move OrderEvent (Timestamp × OrderCommand) Memory Nat Unit) :=
      [.command (.epoch, .create .nil [⟨.nil, 1⟩]),
        .save r (some 0) ⟨.empty, .empty, (), none, 0⟩,
        .command (.epoch, .create .nil [⟨.nil, 1⟩]),
        .rebuild [.fresh "7" (.typed (.itemsUpdated ⟨[], none⟩)), .fresh "7" (.raw "Noted" "")],
        .command (.epoch, .confirm), .apply (.fresh "7" (.raw "OrderShipped" "")) true]
    let fresh : Order OrderEvent := .new (aggregateType OrderEvent) "7"
    let a := fresh.makeAll (aggregateType OrderEvent) decision moves
    fresh.PermitsAll (aggregateType OrderEvent) decision moves ∧ a.originalVersion = 2 ∧
      a.changes.length = 1 ∧ a.currentVersion = a.originalVersion + a.changes.length := by
  intro r moves fresh a
  have hpermits : fresh.PermitsAll (aggregateType OrderEvent) decision moves :=
    ⟨trivial, trivial, trivial, rfl, trivial, trivial, trivial⟩
  obtain ⟨-, -, -, hbalanced⟩ :=
    version_accounting (aggregateType OrderEvent) decision "7" moves
  exact ⟨hpermits, rfl, rfl, hbalanced hpermits⟩

end Aggregate

end EventLog
