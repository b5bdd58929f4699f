/-
# What a query asks for

A query is put together call by call, and of each setting only what was given last counts
(`ReadQuery.Given`). It is looked at when it is put to a log and not before. `ReadQuery.Checked`
lists what there is to find, the first flaw in a fixed order or the read that the settings come
to, and each of the five ways of putting a query passes through it in the same way: a flaw is the
answer, and a read becomes one call.

That a log is called once, or not at all, is said of what it sees. `Readable.noting` is the log
with a list of the calls it gets, so an answer that comes with the same list was given without
the log, and one that comes with one more call took exactly this one.
-/

import EventLog.Access.Basic
import Mathlib.Data.List.Induction

namespace EventLog

variable {ε : Type} {m : Type → Type}

/-! ## What was given last -/

/-- What a setting is about. -/
inductive ReadSetting.Kind where
  | stream
  | fromTime
  | toTime
  | fromPosition
  | toPosition
  | direction
  | limit
deriving DecidableEq

def ReadSetting.kind : ReadSetting → Kind
  | stream _ => .stream
  | fromTime _ => .fromTime
  | toTime _ => .toTime
  | fromPosition _ => .fromPosition
  | toPosition _ => .toPosition
  | direction _ => .direction
  | limit _ => .limit

/-- The last setting of a kind, if there is one. -/
def lastGiven (kind : ReadSetting.Kind) (settings : List ReadSetting) : Option ReadSetting :=
  (settings.filter fun setting => setting.kind = kind).getLast?

theorem lastGiven_concat (kind : ReadSetting.Kind) (settings : List ReadSetting)
    (setting : ReadSetting) :
    lastGiven kind (settings ++ [setting]) =
      if setting.kind = kind then some setting else lastGiven kind settings := by
  rw [lastGiven, List.filter_append]
  by_cases hkind : setting.kind = kind
  · rw [if_pos hkind, List.filter_cons_of_pos (by simpa using hkind), List.filter_nil,
      List.getLast?_concat]
  · rw [if_neg hkind, List.filter_cons_of_neg (by simpa using hkind), List.filter_nil,
      List.append_nil, lastGiven]

namespace ReadQuery

/-- The query has of each setting the value that was given last, and none if none was given. A
read of which no direction was given goes forward. -/
structure Given (settings : List ReadSetting) (q : ReadQuery) : Prop where
  stream : lastGiven .stream settings = q.stream.map .stream
  fromTime : lastGiven .fromTime settings = q.fromTime.map .fromTime
  toTime : lastGiven .toTime settings = q.toTime.map .toTime
  fromPosition : lastGiven .fromPosition settings = q.fromPosition.map .fromPosition
  toPosition : lastGiven .toPosition settings = q.toPosition.map .toPosition
  direction : (lastGiven .direction settings).getD (.direction .forward) = .direction q.direction
  limit : lastGiven .limit settings = q.limit.map .limit

theorem Given.concat {settings : List ReadSetting} {q : ReadQuery} (h : Given settings q)
    (setting : ReadSetting) : Given (settings ++ [setting]) (q.set setting) := by
  obtain ⟨hstream, hfromTime, htoTime, hfrom, hto, hdirection, hlimit⟩ := h
  -- Of the seven kinds the setting changes its own, and the other six are as they were.
  cases setting <;> constructor <;> simp [lastGiven_concat, ReadSetting.kind, set, *]

theorem given_ofSettings (settings : List ReadSetting) : Given settings (ofSettings settings) := by
  induction settings using List.reverseRecOn with
  | nil => constructor <;> rfl
  | append_singleton settings setting ih =>
      rw [ofSettings, List.foldl_append]
      exact ih.concat setting

/-- Nothing else is in a query. -/
theorem Given.unique {settings : List ReadSetting} {q other : ReadQuery} (h : Given settings q)
    (hother : Given settings other) : q = other := by
  have hsame {α : Type} {setting : α → ReadSetting} (hinjective : Function.Injective setting)
      {kind : ReadSetting.Kind} {value value' : Option α}
      (hvalue : lastGiven kind settings = value.map setting)
      (hvalue' : lastGiven kind settings = value'.map setting) : value = value' :=
    Option.map_injective hinjective (hvalue.symm.trans hvalue')
  have hdirection : q.direction = other.direction :=
    ReadSetting.direction.inj (h.direction.symm.trans hother.direction)
  have hstream := hsame (fun _ _ => ReadSetting.stream.inj) h.stream hother.stream
  have hfromTime := hsame (fun _ _ => ReadSetting.fromTime.inj) h.fromTime hother.fromTime
  have htoTime := hsame (fun _ _ => ReadSetting.toTime.inj) h.toTime hother.toTime
  have hfrom := hsame (fun _ _ => ReadSetting.fromPosition.inj) h.fromPosition hother.fromPosition
  have hto := hsame (fun _ _ => ReadSetting.toPosition.inj) h.toPosition hother.toPosition
  have hlimit := hsame (fun _ _ => ReadSetting.limit.inj) h.limit hother.limit
  cases q
  cases other
  simp_all

/-- Settings that agree in what they give last come to the same query, in whatever order they
were given and however often. -/
theorem ofSettings_congr {settings others : List ReadSetting}
    (same : ∀ kind, lastGiven kind settings = lastGiven kind others) :
    ofSettings settings = ofSettings others := by
  have hothers := given_ofSettings others
  refine (given_ofSettings settings).unique ?_
  exact ⟨(same _).trans hothers.stream, (same _).trans hothers.fromTime,
    (same _).trans hothers.toTime, (same _).trans hothers.fromPosition,
    (same _).trans hothers.toPosition, same .direction ▸ hothers.direction,
    (same _).trans hothers.limit⟩

/-! ## What the check finds -/

/-- An upper bound is set only along with its lower bound. -/
structure Paired (q : ReadQuery) : Prop where
  time : q.toTime ≠ none → q.fromTime ≠ none
  position : q.toPosition ≠ none → q.fromPosition ≠ none

/-- The read of a stream that a query comes to, restricted to certain events or not. -/
def specOf (q : ReadQuery) (stream : String) (ids : Option (List Uuid)) : ReadSpec :=
  ⟨stream, q.fromTime, q.toTime, q.fromPosition, q.toPosition, q.direction, q.limit, ids⟩

variable {q : ReadQuery} {stream : String}

/-- A query that names a stream and pairs its bounds passes the check. -/
theorem build_eq_specOf (hstream : q.stream = some stream) (named : stream ≠ "")
    (paired : q.Paired) : q.build = .ok (q.specOf stream none) := by
  have htime : ¬ (q.toTime.isSome ∧ q.fromTime.isNone) := by
    rintro ⟨hto, hfrom⟩
    exact paired.time (Option.isSome_iff_ne_none.mp hto) (Option.isNone_iff_eq_none.mp hfrom)
  have hposition : ¬ (q.toPosition.isSome ∧ q.fromPosition.isNone) := by
    rintro ⟨hto, hfrom⟩
    exact paired.position (Option.isSome_iff_ne_none.mp hto) (Option.isNone_iff_eq_none.mp hfrom)
  rw [build, if_neg htime, if_neg hposition, hstream]
  simp [requireStreamId, named, specOf]

/-- What a query turns out to be: flawed, and then the flaw that is looked for first decides, or
a read. -/
inductive Checked (q : ReadQuery) : Except Error ReadSpec → Prop
  | timeOpen (upper : q.toTime ≠ none) (lower : q.fromTime = none) :
      Checked q (.error .toTimeWithoutFromTime)
  | positionOpen (time : q.toTime ≠ none → q.fromTime ≠ none) (upper : q.toPosition ≠ none)
      (lower : q.fromPosition = none) : Checked q (.error .toIdWithoutFromId)
  | unscoped (paired : q.Paired) (stream : q.stream = none) : Checked q (.error .missingStream)
  | unnamed (paired : q.Paired) (stream : q.stream = some "") : Checked q (.error .emptyStreamId)
  | sound (paired : q.Paired) {stream : String} (stated : q.stream = some stream)
      (named : stream ≠ "") : Checked q (.ok (q.specOf stream none))

theorem checked_build (q : ReadQuery) : q.Checked q.build := by
  by_cases htime : q.toTime ≠ none ∧ q.fromTime = none
  · have hbuild : q.build = .error .toTimeWithoutFromTime := by
      rw [build, if_pos]
      simpa [Option.isSome_iff_ne_none] using htime
    exact hbuild ▸ .timeOpen htime.1 htime.2
  have hpaired : q.toTime ≠ none → q.fromTime ≠ none := fun hto hfrom => htime ⟨hto, hfrom⟩
  have htime' : ¬ (q.toTime.isSome ∧ q.fromTime.isNone) := by
    simpa [Option.isSome_iff_ne_none] using htime
  by_cases hposition : q.toPosition ≠ none ∧ q.fromPosition = none
  · have hbuild : q.build = .error .toIdWithoutFromId := by
      rw [build, if_neg htime', if_pos]
      simpa [Option.isSome_iff_ne_none] using hposition
    exact hbuild ▸ .positionOpen hpaired hposition.1 hposition.2
  have hboth : q.Paired := ⟨hpaired, fun hto hfrom => hposition ⟨hto, hfrom⟩⟩
  have hposition' : ¬ (q.toPosition.isSome ∧ q.fromPosition.isNone) := by
    simpa [Option.isSome_iff_ne_none] using hposition
  cases hstream : q.stream with
  | none =>
      have hbuild : q.build = .error .missingStream := by
        rw [build, if_neg htime', if_neg hposition', hstream]
      exact hbuild ▸ .unscoped hboth hstream
  | some stream =>
      by_cases hnamed : stream = ""
      · subst hnamed
        have hbuild : q.build = .error .emptyStreamId := by
          rw [build, if_neg htime', if_neg hposition', hstream]
          rfl
        exact hbuild ▸ .unnamed hboth hstream
      · exact build_eq_specOf hstream hnamed hboth ▸ .sound hboth hstream hnamed

section Answers

variable [Monad m] {α : Type}

theorem answer_eq (hstream : q.stream = some stream) (named : stream ≠ "") (paired : q.Paired)
    (ask : ReadSpec → m (Except Error α)) : q.answer ask = ask (q.specOf stream none) := by
  rw [answer, build_eq_specOf hstream named paired]

theorem first_eq (hstream : q.stream = some stream) (named : stream ≠ "") (paired : q.Paired)
    (ask : ReadSpec → m (Except Error (List (Envelope ε)))) :
    q.first ask = do return (← ask (q.specOf stream none)).map List.head? := by
  rw [first, answer_eq hstream named paired]

end Answers

end ReadQuery

/-! ## Putting a query to a log -/

/-- What a log that answers reads is asked. -/
inductive ReadCall where
  | query (spec : ReadSpec)
  | count (spec : ReadSpec)
deriving DecidableEq

inductive ReadAnswer (ε : Type) where
  | envelope (answer : Except Error (Option (Envelope ε)))
  | envelopes (answer : Except Error (List (Envelope ε)))
  | number (answer : Except Error Nat)

/-- The ways of putting a query. -/
inductive ReadQuestion where
  | event (id : Uuid)
  | events (ids : List Uuid)
  | count
  | toList
  | last (stream : String)

def ReadCall.ask [Functor m] (log : Readable ε m) : ReadCall → m (ReadAnswer ε)
  | query spec => .envelopes <$> log.query spec
  | count spec => .number <$> log.count spec

/-- The log that writes down every call it gets. -/
def Readable.noting [Monad m] (log : Readable ε m) : Readable ε (StateT (List ReadCall) m) where
  query spec calls := do return (← log.query spec, calls ++ [.query spec])
  count spec calls := do return (← log.count spec, calls ++ [.count spec])

namespace ReadQuestion

/-- Put a query to a log. -/
def put [Monad m] (q : ReadQuery) (log : Readable ε m) : ReadQuestion → m (ReadAnswer ε)
  | event id => .envelope <$> q.event id log.query
  | events ids => .envelopes <$> q.events ids log.query
  | count => .number <$> q.count log.count
  | toList => .envelopes <$> q.toList log.query
  | last stream => .envelope <$> q.last stream log.query

/-- The query that is checked. Asked for the last event of a stream it is about this stream,
goes backward and stops after one. -/
def checks (q : ReadQuery) : ReadQuestion → ReadQuery
  | last stream =>
    { q with stream := some stream, direction := .backward, limit := some 1 }
  | _ => q

/-- The one call that is made if the query comes to this read. -/
def call (spec : ReadSpec) : ReadQuestion → ReadCall
  | event id => .query { spec with eventIds := some [id], limit := some 1 }
  | events ids => .query { spec with eventIds := some ids }
  | count => .count spec
  | toList => .query spec
  | last _ => .query spec

/-- What is handed on of the answer to the call. -/
def shows : ReadQuestion → ReadAnswer ε → ReadAnswer ε
  | event _, .envelopes answer => .envelope (answer.map List.head?)
  | last _, .envelopes answer => .envelope (answer.map List.head?)
  | _, answer => answer

/-- The answer to a flawed query. -/
def refused (e : Error) : ReadQuestion → ReadAnswer ε
  | event _ => .envelope (.error e)
  | events _ => .envelopes (.error e)
  | count => .number (.error e)
  | toList => .envelopes (.error e)
  | last _ => .envelope (.error e)

variable [Monad m] [LawfulMonad m] {q : ReadQuery} {log : Readable ε m}

theorem put_of_flawed {e : Error} (question : ReadQuestion)
    (h : (question.checks q).build = .error e) : question.put q log = pure (question.refused e) := by
  cases question with
  | event id =>
      have h : q.build = .error e := h
      simp [put, refused, ReadQuery.event, ReadQuery.first, ReadQuery.answer, h, Except.map]
  | events ids =>
      have h : q.build = .error e := h
      simp [put, refused, ReadQuery.events, ReadQuery.answer, h]
  | count =>
      have h : q.build = .error e := h
      simp [put, refused, ReadQuery.count, ReadQuery.answer, h]
  | toList =>
      have h : q.build = .error e := h
      simp [put, refused, ReadQuery.toList, ReadQuery.answer, h]
  | last stream =>
      have h : (q.latestOf stream).build = .error e := h
      simp [put, refused, ReadQuery.last, ReadQuery.first, ReadQuery.answer, h, Except.map]

theorem put_of_sound {spec : ReadSpec} (question : ReadQuestion)
    (h : (question.checks q).build = .ok spec) :
    question.put q log = question.shows <$> (question.call spec).ask log := by
  cases question with
  | event id =>
      have h : q.build = .ok spec := h
      simp [put, shows, call, ReadCall.ask, ReadQuery.event, ReadQuery.first, ReadQuery.answer, h]
  | events ids =>
      have h : q.build = .ok spec := h
      simp [put, shows, call, ReadCall.ask, ReadQuery.events, ReadQuery.answer, h]
  | count =>
      have h : q.build = .ok spec := h
      simp [put, shows, call, ReadCall.ask, ReadQuery.count, ReadQuery.answer, h]
  | toList =>
      have h : q.build = .ok spec := h
      simp [put, shows, call, ReadCall.ask, ReadQuery.toList, ReadQuery.answer, h]
  | last stream =>
      have h : (q.latestOf stream).build = .ok spec := h
      simp [put, shows, call, ReadCall.ask, ReadQuery.last, ReadQuery.first, ReadQuery.answer, h]

variable (log) in
/-- A log that notes its calls is not called about a flawed query. -/
theorem put_noting_of_flawed {e : Error} (question : ReadQuestion) (noted : List ReadCall)
    (h : (question.checks q).build = .error e) :
    (question.put q log.noting).run noted = pure (question.refused e, noted) := by
  rw [put_of_flawed question h]
  rfl

/-- A call to it is the call to the log, and is noted. -/
theorem run_ask_noting (call : ReadCall) (noted : List ReadCall) :
    (call.ask log.noting).run noted = do return (← call.ask log, noted ++ [call]) := by
  cases call with
  | query spec =>
      rw [ReadCall.ask, StateT.run_map, StateT.run]
      simp [ReadCall.ask, Readable.noting]
  | count spec =>
      rw [ReadCall.ask, StateT.run_map, StateT.run]
      simp [ReadCall.ask, Readable.noting]

theorem put_noting_of_sound {spec : ReadSpec} (question : ReadQuestion) (noted : List ReadCall)
    (h : (question.checks q).build = .ok spec) :
    (question.put q log.noting).run noted = do
      let answer ← (question.call spec).ask log
      return (question.shows answer, noted ++ [question.call spec]) := by
  rw [put_of_sound question h, StateT.run_map, run_ask_noting]
  simp

end ReadQuestion

/-- Take any settings in any order, some of them given several times, any way of putting the
query and any log that answers reads.

The query has of each setting what was given last, and any settings that give the same last are
answered the same. What is checked is this query, asked for the last event of a stream with that
stream, backward and a limit of one. If it is flawed the answer is the first flaw and the log is
not called. Otherwise the log is called once, with the read that the query comes to, and what is
answered is its answer: restricted to the event asked for, and stopped after one, if a single
event is asked for, and restricted to those asked for if there are several. -/
theorem last_settings_answered [Monad m] [LawfulMonad m] (settings : List ReadSetting)
    (question : ReadQuestion) (log : Readable ε m) (noted : List ReadCall) :
    (∀ others, (∀ kind, lastGiven kind others = lastGiven kind settings) →
      question.put (.ofSettings others) log = question.put (.ofSettings settings) log) ∧
    ∃ q verdict, ReadQuery.Given settings q ∧ (question.checks q).Checked verdict ∧
      (question.put (.ofSettings settings) log.noting).run noted =
        match verdict with
        | .error e => pure (question.refused e, noted)
        | .ok spec => do
          let answer ← (question.call spec).ask log
          return (question.shows answer, noted ++ [question.call spec]) := by
  refine ⟨fun others same => by rw [ReadQuery.ofSettings_congr same], .ofSettings settings,
    (question.checks (.ofSettings settings)).build, ReadQuery.given_ofSettings settings,
    ReadQuery.checked_build _, ?_⟩
  cases hbuild : (question.checks (.ofSettings settings)).build with
  | error e => exact ReadQuestion.put_noting_of_flawed log question noted hbuild
  | ok spec => exact ReadQuestion.put_noting_of_sound question noted hbuild

/-- Some settings are given twice, in between others, and a query with the same last ones in
another order is answered the same. A query with both upper bounds and neither lower one is told
of the time, and the log is left alone. -/
theorem last_settings_answered_given_again :
    let id : Uuid := .ofNat 7
    let found : Envelope Unit := .stored id 4 5 .empty (.raw "Noted" "1")
    let log : Readable Unit Id := ⟨fun _ => .ok [found], fun _ => .ok 1⟩
    let settings : List ReadSetting := [.limit 7, .stream "a", .toPosition 9,
      .direction .backward, .fromPosition 2, .stream "s", .direction .forward, .toPosition 5]
    let others : List ReadSetting :=
      [.direction .forward, .fromPosition 2, .toPosition 5, .limit 7, .stream "s"]
    let one := ReadQuestion.event id
    (∀ kind, lastGiven kind others = lastGiven kind settings) ∧
      one.put (.ofSettings others) log = one.put (.ofSettings settings) log ∧
      (one.put (.ofSettings settings) log.noting).run [] =
        (.envelope (.ok (some found)),
          [.query ⟨"s", none, none, some 2, some 5, .forward, some 1, some [id]⟩]) ∧
      ((ReadQuestion.last "s").put (.ofSettings [.toPosition 3, .toTime .epoch]) log.noting).run
        [] = (.envelope (.error .toTimeWithoutFromTime), []) := by
  intro id found log settings others one
  have hsame : ∀ kind, lastGiven kind others = lastGiven kind settings := by
    intro kind
    cases kind <;> rfl
  obtain ⟨hothers, q, verdict, hgiven, hchecked, hrun⟩ :=
    last_settings_answered settings one log []
  obtain ⟨-, flawed, finding, hgiven', hchecked', hrun'⟩ :=
    last_settings_answered [.toPosition 3, .toTime .epoch] (.last "s") log []
  obtain rfl := hgiven.unique (ReadQuery.given_ofSettings settings)
  obtain rfl := hgiven'.unique (ReadQuery.given_ofSettings _)
  refine ⟨hsame, hothers others hsame, ?_, ?_⟩
  · rw [hrun]
    cases hchecked with
    | timeOpen upper => exact absurd rfl upper
    | positionOpen _ _ lower => cases lower
    | unscoped _ missing => cases missing
    | unnamed _ empty => exact absurd empty (by decide)
    | sound _ stated _ =>
        cases stated
        rfl
  · rw [hrun']
    cases hchecked' with
    | timeOpen => rfl
    | positionOpen paired => exact absurd rfl (paired nofun)
    | unscoped paired => exact absurd rfl (paired.time nofun)
    | unnamed paired => exact absurd rfl (paired.time nofun)
    | sound paired => exact absurd rfl (paired.time nofun)

end EventLog
