/-
# Statements are found again in what is sent

The server is sent a text and a list of values, while `Tables.carryOut` is handed the
statement itself. Here the statement is read back from the two (`Statement.ofText?_text`), and
with a SELECT its clauses and the numbers of their placeholders, which is what the tables go
by. A text that names another column, compares the other way or refers to another value would
be read as something else, or not at all.

The readers know the words in which each statement is written and nothing of how its text is
put together. That the values are numbered in the order in which they are sent needs more
than a SELECT by itself: its clauses have to be those of a read (`Select.Binds`).
-/

import EventLog.Proofs.Postgres.Clauses
import EventLog.Proofs.Postgres.Wording

namespace EventLog.Postgres

/-! ## Reads -/

namespace Select

/-- Put a condition in front of those that have been read. -/
def reading (filter : Filter) (value : String) (read : Option (List Condition × List String)) :
    Option (List Condition × List String) := do
  let (conditions, rest) ← read
  return (⟨filter, ← placeholder? value⟩ :: conditions, rest)

/-- The conditions that words begin with, and the words behind them. -/
def readConditions : List String → Option (List Condition × List String)
  | "AND" :: "e.created_at" :: ">=" :: value :: rest =>
    reading .storedSince value (readConditions rest)
  | "AND" :: "e.created_at" :: "<=" :: value :: rest =>
    reading .storedUntil value (readConditions rest)
  | "AND" :: "s.position" :: ">=" :: value :: rest =>
    reading .positionFrom value (readConditions rest)
  | "AND" :: "s.position" :: "<=" :: value :: rest =>
    reading .positionTo value (readConditions rest)
  | "AND" :: "s.event_id" :: "=" :: "ANY" :: value :: rest =>
    reading .eventAmong value (readConditions rest)
  | rest => some ([], rest)

def readDirection : List String → Option (ReadDirection × List String)
  | "ORDER" :: "BY" :: "s.stream_version" :: "ASC" :: rest => some (.forward, rest)
  | "ORDER" :: "BY" :: "s.stream_version" :: "DESC" :: rest => some (.backward, rest)
  | _ => none

def readLimit : List String → Option (Option Nat)
  | [] => some none
  | ["LIMIT", value] => (placeholder? value).map some
  | _ => none

/-- The read that these words and values ask for. -/
def ofWords? (params : List Param) : List String → Option Select
  | "FROM" :: "es_event_streams" :: "s" :: "JOIN" :: "es_event_store" :: "e" :: "ON" ::
      "e.event_id" :: "=" :: "s.event_id" :: "WHERE" :: "s.stream_id" :: "=" :: stream ::
      rest => do
    let (conditions, rest) ← readConditions rest
    let (direction, rest) ← readDirection rest
    return ⟨← placeholder? stream, conditions, direction, ← readLimit rest, params⟩
  | _ => none

/-- The words of a condition in front of its value. -/
def filterWords : Filter → List String
  | .storedSince => ["AND", "e.created_at", ">="]
  | .storedUntil => ["AND", "e.created_at", "<="]
  | .positionFrom => ["AND", "s.position", ">="]
  | .positionTo => ["AND", "s.position", "<="]
  | .eventAmong => ["AND", "s.event_id", "=", "ANY"]

def conditionWords (c : Condition) : List String :=
  filterWords c.filter ++ [placeholderText c.placeholder]

def directionWords : ReadDirection → List String
  | .forward => ["ORDER", "BY", "s.stream_version", "ASC"]
  | .backward => ["ORDER", "BY", "s.stream_version", "DESC"]

def limitWords : Option Nat → List String
  | some n => ["LIMIT", placeholderText n]
  | none => []

/-- The words in front of the conditions. -/
def streamWords (stream : Nat) : List String :=
  ["FROM", "es_event_streams", "s", "JOIN", "es_event_store", "e", "ON", "e.event_id", "=",
    "s.event_id", "WHERE", "s.stream_id", "=", placeholderText stream]

def textWords (s : Select) : List String :=
  streamWords s.stream ++ s.conditions.flatMap conditionWords ++ directionWords s.direction ++
    limitWords s.limit

/-- A condition is read back, whatever stands behind it. -/
theorem readConditions_conditionWords (c : Condition) (rest : List String) :
    readConditions (conditionWords c ++ rest) =
      reading c.filter (placeholderText c.placeholder) (readConditions rest) := by
  obtain ⟨filter, n⟩ := c
  cases filter <;> rfl

theorem readConditions_flatMap (conditions : List Condition) {rest : List String}
    (h : readConditions rest = some ([], rest)) :
    readConditions (conditions.flatMap conditionWords ++ rest) = some (conditions, rest) := by
  induction conditions with
  | nil => exact h
  | cons c others ih =>
      rw [List.flatMap_cons, List.append_assoc, readConditions_conditionWords, ih, reading]
      simp

theorem ofWords?_textWords (s : Select) : ofWords? s.params s.textWords = some s := by
  obtain ⟨stream, conditions, direction, limit, params⟩ := s
  have hconditions : readConditions (conditions.flatMap conditionWords ++
      (directionWords direction ++ limitWords limit)) =
        some (conditions, directionWords direction ++ limitWords limit) :=
    readConditions_flatMap conditions (by cases direction <;> rfl)
  have hdirection : readDirection (directionWords direction ++ limitWords limit) =
      some (direction, limitWords limit) := by
    cases direction <;> rfl
  have hlimit : readLimit (limitWords limit) = some limit := by
    cases limit with
    | none => rfl
    | some n => simp [limitWords, readLimit]
  rw [textWords, List.append_assoc, List.append_assoc]
  simp only [streamWords, ofWords?, List.cons_append, List.nil_append, hconditions]
  simp [hdirection, hlimit]

theorem follows_conditionText (c : Condition) :
    Follows (conditionText c) (conditionWords c) := by
  obtain ⟨filter, n⟩ := c
  cases filter with
  | storedSince => exact .value (by decide) (by decide) n
  | storedUntil => exact .value (by decide) (by decide) n
  | positionFrom => exact .value (by decide) (by decide) n
  | positionTo => exact .value (by decide) (by decide) n
  | eventAmong =>
      exact (Follows.value (by decide) (by decide) n).append (follows_ofList (by decide))

theorem follows_directionText (direction : ReadDirection) :
    Follows (directionText direction) (directionWords direction) := by
  cases direction with
  | forward => exact follows_ofList (by decide)
  | backward => exact follows_ofList (by decide)

theorem follows_limitText (limit : Option Nat) :
    Follows (limitText limit) (limitWords limit) := by
  cases limit with
  | none => exact .nothing
  | some n => exact .value (by decide) (by decide) n

theorem words_text (s : Select) : words s.text.toList = s.textWords := by
  have hconditions := Follows.join follows_conditionText s.conditions
  have hdirection := follows_directionText s.direction
  have hlimit := follows_limitText s.limit
  exact hlimit.words_append (hdirection.words_append (hconditions.words_append
    (Leads.words_append (.append (leads_ofList (by decide)) (leads_ofList (by decide)))
      (words_placeholderText s.stream))))

theorem placeholdersIn_conditionWords (c : Condition) :
    placeholdersIn (conditionWords c) = [c.placeholder] := by
  have hfilter : placeholdersIn (filterWords c.filter) = [] := by
    cases c.filter <;> rfl
  rw [conditionWords, placeholdersIn_append, hfilter]
  exact placeholdersIn_values [c.placeholder]

/-- The placeholders in the text of a read are those of its clauses, as the clauses stand. -/
theorem placeholdersIn_textWords (s : Select) : placeholdersIn s.textWords =
    s.stream :: s.conditions.map Condition.placeholder ++ s.limit.toList := by
  have hstream : placeholdersIn (streamWords s.stream) = [s.stream] :=
    placeholdersIn_values [s.stream]
  have hconditions : placeholdersIn (s.conditions.flatMap conditionWords) =
      s.conditions.map Condition.placeholder := by
    rw [List.map_eq_flatMap, placeholdersIn, List.filterMap_flatMap]
    exact congrArg (List.flatMap · s.conditions) (funext placeholdersIn_conditionWords)
  have hdirection : placeholdersIn (directionWords s.direction) = [] := by
    cases s.direction <;> rfl
  have hlimit : placeholdersIn (limitWords s.limit) = s.limit.toList := by
    cases s.limit with
    | none => rfl
    | some n => exact placeholdersIn_values [n]
  rw [textWords, placeholdersIn_append, placeholdersIn_append, placeholdersIn_append, hstream,
    hconditions, hdirection, hlimit, List.append_nil]
  rfl

end Select

/-! ## Statements -/

theorem EventRow.length_params (row : EventRow) : row.params.length = 5 := rfl

theorem MembershipRow.length_params (row : MembershipRow) : row.params.length = 3 := rfl

theorem length_flatMap_of_width {α β : Type} {f : α → List β} {width : Nat}
    (h : ∀ a, (f a).length = width) (list : List α) :
    (list.flatMap f).length = list.length * width := by
  rw [List.length_flatMap, funext h, List.map_const', List.sum_replicate_nat]

namespace Statement

/-- Rows for the table of event bodies, from their values. -/
def readEventRows : List Param → Option (List EventRow)
  | [] => some []
  | .uuid id :: .text name :: .text payload :: .text metadata :: .time createdAt :: rest =>
    (readEventRows rest).map (⟨id, name, payload, metadata, createdAt⟩ :: ·)
  | _ => none

/-- Rows for the table of memberships, from their values. -/
def readMembershipRows : List Param → Option (List MembershipRow)
  | [] => some []
  | .text stream :: .int version :: .uuid id :: rest =>
    (readMembershipRows rest).map (⟨stream, version, id⟩ :: ·)
  | _ => none

def readCreation : List String → Option Statement
  | "TABLE" :: "IF" :: "NOT" :: "EXISTS" :: "es_event_store" :: _ => some createEvents
  | "TABLE" :: "IF" :: "NOT" :: "EXISTS" :: "es_stream_heads" :: _ => some createHeads
  | "TABLE" :: "IF" :: "NOT" :: "EXISTS" :: "es_event_streams" :: _ => some createMemberships
  | "INDEX" :: _ => some createMembershipIndex
  | _ => none

def readInsertion (params : List Param) (words : List String) : Option Statement :=
  match words, params with
  | ["es_stream_heads", "stream_id", "last_version", "VALUES", "$1", "0", "ON", "CONFLICT",
      "stream_id", "DO", "NOTHING"], [.text stream] => some (ensureHead stream)
  | "es_event_store" :: "event_id" :: "event_name" :: "event_data" :: "metadata" ::
      "created_at" :: "VALUES" :: _, params => (readEventRows params).map insertEvents
  | "es_event_streams" :: "stream_id" :: "stream_version" :: "event_id" :: "VALUES" :: _,
      params => (readMembershipRows params).map insertMemberships
  | _, _ => none

def readQuestion (params : List Param) (words : List String) : Option Statement :=
  match words, params with
  | ["last_version", "FROM", "es_stream_heads", "WHERE", "stream_id", "=", "$1"],
      [.text stream] => some (headVersion stream)
  | ["last_version", "FROM", "es_stream_heads", "WHERE", "stream_id", "=", "$1", "FOR",
      "UPDATE"], [.text stream] => some (lockHead stream)
  | ["event_id", "FROM", "es_event_store", "WHERE", "event_id", "=", "ANY", "$1"],
      [.uuids ids] => some (knownEvents ids)
  | ["EXISTS", "SELECT", "1", "FROM", "es_event_store", "WHERE", "event_id", "=", "$1"],
      [.uuid id] => some (eventExists id)
  | ["stream_id", "FROM", "es_event_streams", "WHERE", "event_id", "=", "$1", "ORDER", "BY",
      "position", "ASC", "LIMIT", "1"], [.uuid id] => some (streamOf id)
  | ["stream_version", "FROM", "es_event_streams", "WHERE", "stream_id", "=", "$1", "AND",
      "event_id", "=", "$2", "ORDER", "BY", "stream_version", "DESC", "LIMIT", "1"],
      [.text stream, .uuid id] => some (versionIn stream id)
  | "s.stream_version" :: "s.position" :: "e.event_id" :: "e.event_name" :: "e.event_data" ::
      "e.metadata" :: read, params => (Select.ofWords? params read).map select
  | "COUNT" :: "*" :: "FROM" :: "SELECT" :: "s.position" :: read, params =>
    (Select.ofWords? params read.dropLast).map count
  | _, _ => none

def readChange (params : List Param) (words : List String) : Option Statement :=
  match words, params with
  | ["UPDATE", "es_stream_heads", "SET", "last_version", "=", "$1", "WHERE", "stream_id", "=",
      "$2"], [.int version, .text stream] => some (moveHead stream version)
  | ["DELETE", "FROM", "es_stream_heads", "WHERE", "stream_id", "=", "$1"], [.text stream] =>
    some (deleteHead stream)
  | ["DELETE", "FROM", "es_event_streams", "WHERE", "stream_id", "=", "$1"], [.text stream] =>
    some (deleteMemberships stream)
  | _, _ => none

/-- The statement that these words and values ask for. -/
def ofWords? (params : List Param) : List String → Option Statement
  | ["BEGIN"] => some begin
  | ["COMMIT"] => some commit
  | "CREATE" :: rest => readCreation rest
  | "INSERT" :: "INTO" :: rest => readInsertion params rest
  | "SELECT" :: rest => readQuestion params rest
  | words => readChange params words

/-- The numbers of the placeholders: those of the clauses in a read, and one for each value in
every other statement. -/
def placeholders : Statement → List Nat
  | select read => read.stream :: read.conditions.map Condition.placeholder ++ read.limit.toList
  | count read => read.stream :: read.conditions.map Condition.placeholder ++ read.limit.toList
  | statement => List.range' 1 statement.params.length

theorem readEventRows_flatMap (rows : List EventRow) :
    readEventRows (rows.flatMap EventRow.params) = some rows := by
  induction rows with
  | nil => rfl
  | cons row rest ih =>
      show (readEventRows (rest.flatMap EventRow.params)).map (row :: ·) = _
      rw [ih]
      rfl

theorem readMembershipRows_flatMap (rows : List MembershipRow) :
    readMembershipRows (rows.flatMap MembershipRow.params) = some rows := by
  induction rows with
  | nil => rfl
  | cons row rest ih =>
      show (readMembershipRows (rest.flatMap MembershipRow.params)).map (row :: ·) = _
      rw [ih]
      rfl

/-- Beside its values, a text says that it is this statement and where the values go. -/
structure Told (statement : Statement) (text : String) : Prop where
  read : ofWords? statement.params (words text.toList) = some statement
  numbered : placeholdersIn (words text.toList) = statement.placeholders

namespace Told

variable {statement : Statement}

/-- A text without variable parts. -/
theorem of_literal {text : List Char}
    (read : ofWords? statement.params (words text) = some statement)
    (numbered : placeholdersIn (words text) = statement.placeholders) :
    statement.Told (String.ofList text) := by
  rw [← words_ofList text] at read numbered
  exact ⟨read, numbered⟩

/-- A text that consists of two. -/
theorem of_append {front rest : String} {before after : List String} (h : Leads front before)
    (h' : words rest.toList = after)
    (read : ofWords? statement.params (before ++ after) = some statement)
    (numbered : placeholdersIn (before ++ after) = statement.placeholders) :
    statement.Told (front ++ rest) := by
  rw [← h.words_append h'] at read numbered
  exact ⟨read, numbered⟩

/-- A text with a piece behind it. -/
theorem of_follows {front rest : String} {before after : List String}
    (h : words front.toList = before) (h' : Follows rest after)
    (read : ofWords? statement.params (before ++ after) = some statement)
    (numbered : placeholdersIn (before ++ after) = statement.placeholders) :
    statement.Told (front ++ rest) := by
  rw [← h'.words_append h] at read numbered
  exact ⟨read, numbered⟩

theorem insertEvents (rows : List EventRow) :
    (Statement.insertEvents rows).Told (Statement.insertEvents rows).text := by
  have hlength := length_flatMap_of_width EventRow.length_params rows
  refine of_append (.append (leads_ofList (by decide)) (leads_ofList (by decide)))
    (words_placeholderRows rows.length 5) ?_ ?_
  · show (readEventRows (rows.flatMap EventRow.params)).map Statement.insertEvents = _
    rw [readEventRows_flatMap]
    rfl
  · show placeholdersIn ((List.range' 1 (rows.length * 5)).map Select.placeholderText) =
      List.range' 1 (rows.flatMap EventRow.params).length
    rw [placeholdersIn_values, hlength]

theorem insertMemberships (rows : List MembershipRow) :
    (Statement.insertMemberships rows).Told (Statement.insertMemberships rows).text := by
  have hlength := length_flatMap_of_width MembershipRow.length_params rows
  have hrows := words_placeholderRows rows.length 3
  refine of_follows (Leads.words_append (leads_ofList (by decide)) hrows)
    (follows_ofList (by decide)) ?_ ?_
  · show (readMembershipRows (rows.flatMap MembershipRow.params)).map
      Statement.insertMemberships = _
    rw [readMembershipRows_flatMap]
    rfl
  · rw [List.append_assoc, placeholdersIn_append, placeholdersIn_append, placeholdersIn_values]
    show List.range' 1 (rows.length * 3) ++ [] =
      List.range' 1 (rows.flatMap MembershipRow.params).length
    rw [List.append_nil, hlength]

theorem select (read : Select) : (Statement.select read).Told (Statement.select read).text := by
  refine of_append (.append (leads_ofList (by decide)) (leads_ofList (by decide)))
    read.words_text ?_ ?_
  · show (Select.ofWords? read.params read.textWords).map Statement.select = _
    rw [Select.ofWords?_textWords]
    rfl
  · exact read.placeholdersIn_textWords

theorem count (read : Select) : (Statement.count read).Told (Statement.count read).text := by
  refine of_follows (Leads.words_append (leads_ofList (by decide)) read.words_text)
    (follows_ofList (by decide)) ?_ ?_
  · show (Select.ofWords? read.params (read.textWords ++ ["t"]).dropLast).map Statement.count = _
    rw [List.dropLast_concat, Select.ofWords?_textWords]
    rfl
  · rw [List.append_assoc, placeholdersIn_append, placeholdersIn_append,
      read.placeholdersIn_textWords]
    exact List.append_nil _

end Told

theorem told_text (statement : Statement) : statement.Told statement.text := by
  cases statement with
  | createEvents =>
      exact .of_append (.append (.append (leads_ofList (by decide)) (leads_ofList (by decide)))
        (leads_ofList (by decide))) (words_ofList _) rfl rfl
  | createHeads => exact .of_append (leads_ofList (by decide)) (words_ofList _) rfl rfl
  | createMemberships =>
      exact .of_append (.append (.append (leads_ofList (by decide)) (leads_ofList (by decide)))
        (leads_ofList (by decide))) (words_ofList _) rfl rfl
  | createMembershipIndex => exact .of_literal rfl rfl
  | begin => exact .of_literal rfl rfl
  | commit => exact .of_literal rfl rfl
  | ensureHead stream => exact .of_append (leads_ofList (by decide)) (words_ofList _) rfl rfl
  | lockHead stream => exact .of_literal rfl rfl
  | moveHead stream version => exact .of_literal rfl rfl
  | deleteHead stream => exact .of_literal rfl rfl
  | headVersion stream => exact .of_literal rfl rfl
  | insertEvents rows => exact .insertEvents rows
  | knownEvents ids => exact .of_literal rfl rfl
  | eventExists id => exact .of_literal rfl rfl
  | insertMemberships rows => exact .insertMemberships rows
  | deleteMemberships stream => exact .of_literal rfl rfl
  | streamOf id => exact .of_literal rfl rfl
  | versionIn stream id => exact .of_append (leads_ofList (by decide)) (words_ofList _) rfl rfl
  | select read => exact .select read
  | count read => exact .count read

/-- The statement that a text asks for with these values. -/
def ofText? (text : String) (params : List Param) : Option Statement :=
  ofWords? params (words text.toList)

/-- Every statement is found again in its text and its values. -/
theorem ofText?_text (statement : Statement) :
    ofText? statement.text statement.params = some statement :=
  statement.told_text.read

example : ofText? "SELECT last_version FROM es_stream_heads WHERE stream_id = $2 FOR UPDATE"
    [.text "s"] = none := by
  rfl

/-- So no two statements are sent alike. -/
theorem eq_of_text_of_params {a b : Statement} (htext : a.text = b.text)
    (hparams : a.params = b.params) : a = b := by
  have hread := b.ofText?_text
  rw [← htext, ← hparams, a.ofText?_text] at hread
  exact Option.some.inj hread

/-- The values of a statement are numbered from 1 in the order in which they are sent. Of a
SELECT this is said if its clauses are those of a read. -/
theorem placeholdersIn_text (statement : Statement)
    (h : ∀ read, statement = .select read ∨ statement = .count read →
      ∃ spec, read.Binds spec) :
    placeholdersIn (words statement.text.toList) = List.range' 1 statement.params.length := by
  rw [statement.told_text.numbered]
  cases statement with
  | select read =>
      obtain ⟨spec, binds⟩ := h read (.inl rfl)
      exact binds.numbered
  | count read =>
      obtain ⟨spec, binds⟩ := h read (.inr rfl)
      exact binds.numbered
  | _ => rfl

end Statement

end EventLog.Postgres
