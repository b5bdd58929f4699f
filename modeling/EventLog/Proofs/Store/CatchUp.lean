/-
# Catching up with a stream

A reader that wants all of a stream need not ask for it at once. It asks for a page, then for
the next one from behind the last position it was shown, and so on until a page is empty,
while others go on writing to the log between its questions.

What carries the result is that the reader has always seen a beginning of the stream
(`Reader.Seen`). Positions only grow along a stream and whatever is written later stands
behind all of them, so the filter by position parts the stream exactly where the reader has
stopped. An empty page therefore means that nothing is left, at the moment at which the log
answers with it. That the pages hold the whole stream needs nothing of the supply of
identifiers; that each envelope still reads as the reader was shown it needs them drawn
afresh, since a body can be replaced otherwise.
-/

import EventLog.Proofs.ReadQuery
import EventLog.Proofs.Store.AppendOnly

namespace EventLog

variable {ε : Type}

/-- Where a stored event stands. -/
def Envelope.place? (envelope : Envelope ε) : Option Membership := do
  return ⟨← envelope.position, ← envelope.version, ← envelope.eventId⟩

theorem Envelope.position_of_place? {envelope : Envelope ε} {a : Membership}
    (h : envelope.place? = some a) : envelope.position = some a.position := by
  obtain ⟨position, hposition, h⟩ := Option.bind_eq_some_iff.mp h
  obtain ⟨version, -, h⟩ := Option.bind_eq_some_iff.mp h
  obtain ⟨id, -, h⟩ := Option.bind_eq_some_iff.mp h
  cases h
  exact hposition

/-- Envelopes that show their places show the position of the last place last. -/
theorem position_getLast? {page : List (Envelope ε)} {members : List Membership}
    (h : page.map Envelope.place? = members.map some) :
    page.getLast?.bind Envelope.position = members.getLast?.map Membership.position := by
  have hlast := congrArg List.getLast? h
  rw [List.getLast?_map, List.getLast?_map] at hlast
  cases hmember : members.getLast? with
  | none =>
      rw [hmember] at hlast
      rw [Option.map_eq_none_iff.mp hlast]
      rfl
  | some a =>
      rw [hmember] at hlast
      obtain ⟨envelope, henvelope, hplace⟩ := Option.map_eq_some_iff.mp hlast
      rw [henvelope]
      exact Envelope.position_of_place? hplace

/-- The position behind the last of these memberships, and `first` if there are none. -/
def positionBehind (first : Int) (members : List Membership) : Int :=
  (members.getLast?.map fun a => a.position + 1).getD first

theorem positionBehind_append (first : Int) (seen page : List Membership) :
    positionBehind first (seen ++ page) = positionBehind (positionBehind first seen) page := by
  unfold positionBehind
  rw [List.getLast?_append]
  cases page.getLast? <;> rfl

/-- Up to `size` events of a stream in order, from a position on. -/
def pageQuery (stream : String) (size : Nat) (next : Int) : ReadQuery :=
  .ofSettings [.stream stream, .direction .forward, .limit size, .fromPosition next]

/-- The read that a page is. -/
def pageSpec (stream : String) (size : Nat) (next : Int) : ReadSpec :=
  { ReadSpec.whole stream with fromPosition := some next, limit := some size }

theorem build_pageQuery {stream : String} (named : stream ≠ "") (size : Nat) (next : Int) :
    (pageQuery stream size next).build = .ok (pageSpec stream size next) :=
  ReadQuery.build_eq_specOf rfl named ⟨nofun, nofun⟩

namespace Store

/-! ## A page of a stream -/

section Page

variable {s : Store} {stream : String} {seen rest : List Membership}

/-- Positions part a stream at any place. -/
theorem Sound.parted (h : s.Sound) (hmembers : s.members stream = seen ++ rest) :
    (∀ a ∈ seen, a.position < positionBehind 0 seen) ∧
      ∀ a ∈ rest, positionBehind 0 seen ≤ a.position := by
  have hincreasing := h.increasing stream
  rw [hmembers, List.pairwise_append] at hincreasing
  obtain ⟨hseen, -, hbehind⟩ := hincreasing
  obtain rfl | ⟨front, last, rfl⟩ := List.eq_nil_or_concat' seen
  · refine ⟨fun _ ha => (List.not_mem_nil ha).elim, fun a ha => ?_⟩
    have hpos := (h.positions stream a (hmembers ▸ ha)).1
    exact Int.le_trans (by decide) hpos
  · have hlast : positionBehind 0 (front ++ [last]) = last.position + 1 := by
      rw [positionBehind_append]
      rfl
    rw [hlast]
    constructor
    · intro a ha
      obtain ha | ha := List.mem_append.mp ha
      · have hlt := (List.pairwise_append.mp hseen).2.2 a ha last (List.mem_singleton_self _)
        exact Int.lt_add_one_of_le (Int.le_of_lt hlt)
      · rw [List.mem_singleton.mp ha]
        exact Int.lt_succ _
    · intro a ha
      exact hbehind last (List.mem_append_right _ (List.mem_singleton_self _)) a ha

theorem admitted_pageSpec {a : Membership} (hstored : s.hasEvent a.eventId = true) (size : Nat)
    (next : Int) : s.admitted (pageSpec stream size next) a = decide (next ≤ a.position) := by
  obtain ⟨body, hbody⟩ := exists_body_of_hasEvent hstored
  rw [admitted, hbody]
  show (decide (next ≤ a.position) && true && true) = _
  rw [Bool.and_true, Bool.and_true]

/-- A page asked for from behind what has been seen is the next of what is left. -/
theorem query_pageSpec (h : s.Sound) (hmembers : s.members stream = seen ++ rest) (size : Nat) :
    (s.query (pageSpec stream size (positionBehind 0 seen)) : List (Envelope ε)) =
      (rest.take size).filterMap s.envelope? := by
  obtain ⟨hseen, hrest⟩ := h.parted hmembers
  have hstored : ∀ a ∈ seen ++ rest, s.hasEvent a.eventId = true := by
    rw [← hmembers]
    exact h.stored stream
  have hpassed : seen.filter (s.admitted (pageSpec stream size (positionBehind 0 seen))) = [] := by
    rw [List.filter_eq_nil_iff]
    intro a ha
    rw [admitted_pageSpec (hstored a (List.mem_append_left _ ha)), decide_eq_true_iff]
    exact Int.not_le.mpr (hseen a ha)
  have hleft : rest.filter (s.admitted (pageSpec stream size (positionBehind 0 seen))) = rest := by
    rw [List.filter_eq_self]
    intro a ha
    rw [admitted_pageSpec (hstored a (List.mem_append_right _ ha)), decide_eq_true_iff]
    exact hrest a ha
  show (((s.members stream).filter _).take size).filterMap s.envelope? = _
  rw [hmembers, List.filter_append, hpassed, hleft, List.nil_append]

/-- Envelopes that are read stand at the memberships they were read for. -/
theorem map_place?_filterMap {members : List Membership}
    (hstored : ∀ a ∈ members, s.hasEvent a.eventId = true) :
    (members.filterMap s.envelope? : List (Envelope ε)).map Envelope.place? =
      members.map some := by
  induction members with
  | nil => rfl
  | cons a rest ih =>
      obtain ⟨body, hbody⟩ := exists_body_of_hasEvent (hstored a List.mem_cons_self)
      rw [List.filterMap_cons_some (envelope?_eq_some hbody), List.map_cons, List.map_cons,
        ih fun other hother => hstored other (List.mem_cons_of_mem _ hother)]
      rfl

end Page

end Store

/-! ## The reader -/

/-- A reader, the position from which it asks next, and the pages it has been shown. The log
that it reads is the one that the others write to. -/
structure Reader (ε : Type) where
  memory : Memory
  next : Int
  pages : List (List (Envelope ε))

namespace Reader

/-- The reader has been shown the memberships `seen`, which are where the stream begins. -/
structure Seen (stream : String) (seen : List Membership) (reader : Reader ε) : Prop where
  sound : reader.memory.store.Sound
  begun : seen <+: reader.memory.store.members stream
  next : reader.next = positionBehind 0 seen
  places : reader.pages.flatten.map Envelope.place? = seen.map some

/-- What is in the pages is what these memberships read as now. -/
def Current (seen : List Membership) (reader : Reader ε) : Prop :=
  reader.pages.flatten = seen.filterMap reader.memory.store.envelope?

/-- A reader that has been shown nothing. -/
def opened (memory : Memory) : Reader ε := ⟨memory, 0, []⟩

variable [EventType ε] (supply : Nat → Draw) (stream : String) (size : Nat)

/-- The others put these calls to the log. -/
def meanwhile (calls : List (LogCall ε)) (reader : Reader ε) : Reader ε :=
  { reader with memory := (converse (Memory.access supply) calls reader.memory).2 }

/-- What the log answers if the reader asks for its next page. -/
def page (reader : Reader ε) : Except Error (List (Envelope ε)) :=
  ((pageQuery stream size reader.next).toList (Memory.access supply).query reader.memory).1

/-- Take the next page, and go on behind the last position that it shows. -/
def turn (reader : Reader ε) : Reader ε :=
  match reader.page supply stream size with
  | .error _ => reader
  | .ok page =>
    { reader with
      next := (page.getLast?.bind Envelope.position).elim reader.next (· + 1)
      pages := reader.pages ++ [page] }

/-- The reader after `n` pages; before it asks for page `n`, the others put `others n`. -/
def after (others : Nat → List (LogCall ε)) (memory : Memory) : Nat → Reader ε
  | 0 => opened memory
  | n + 1 => ((after others memory n).meanwhile supply (others n)).turn supply stream size

variable {supply stream size}

theorem turn_of_ok {reader : Reader ε} {page : List (Envelope ε)}
    (h : reader.page supply stream size = .ok page) :
    reader.turn supply stream size =
      { reader with
        next := (page.getLast?.bind Envelope.position).elim reader.next (· + 1)
        pages := reader.pages ++ [page] } := by
  rw [turn, h]

/-- Reading changes nothing in the log. -/
theorem memory_turn (reader : Reader ε) :
    (reader.turn supply stream size).memory = reader.memory := by
  unfold turn
  cases reader.page supply stream size <;> rfl

/-! ## What the reader has been shown -/

namespace Seen

variable {seen rest : List Membership} {reader : Reader ε} (h : reader.Seen stream seen)

include h

theorem meanwhile (supply : Nat → Draw) {calls : List (LogCall ε)}
    (spared : ∀ call ∈ calls, call ≠ .delete stream) :
    (reader.meanwhile supply calls).Seen stream seen where
  sound := Memory.sound_converse supply h.sound calls
  begun := h.begun.trans (Memory.members_grows_converse spared)
  next := h.next
  places := h.places

/-- Bodies stay as they are, so what has been shown is still what is there. -/
theorem current_meanwhile {calls : List (LogCall ε)}
    (spared : ∀ call ∈ calls, call ≠ .delete stream)
    (fresh : FreshAlong supply calls reader.memory) (hcurrent : reader.Current seen) :
    (reader.meanwhile supply calls).Current seen := by
  have hcontinues := Memory.continues_converse spared fresh
  exact hcurrent.trans (hcontinues.filterMap_envelope?_eq h.sound h.begun.subset).symm

omit [EventType ε] in
/-- There are as many envelopes in the pages as memberships have been seen. -/
theorem length_pages_le :
    reader.pages.flatten.length ≤ (reader.memory.store.members stream).length := by
  have hlength := congrArg List.length h.places
  rw [List.length_map, List.length_map] at hlength
  exact hlength ▸ h.begun.length_le

variable (hmembers : reader.memory.store.members stream = seen ++ rest)

include hmembers

omit [EventType ε] in
theorem map_place?_left (size : Nat) :
    ((rest.take size).filterMap reader.memory.store.envelope? : List (Envelope ε)).map
      Envelope.place? = (rest.take size).map some := by
  refine Store.map_place?_filterMap fun a ha => h.sound.stored stream a ?_
  exact hmembers ▸ List.mem_append_right seen (List.mem_of_mem_take ha)

/-- The next page is the beginning of what is left. -/
theorem page_eq (named : stream ≠ "") : reader.page supply stream size =
    .ok ((rest.take size).filterMap reader.memory.store.envelope?) := by
  rw [← Store.query_pageSpec h.sound hmembers, page, ReadQuery.toList, ReadQuery.answer,
    build_pageQuery named, h.next]
  rfl

/-- So having taken it the reader has seen that much more. -/
theorem turn (named : stream ≠ "") :
    (reader.turn supply stream size).Seen stream (seen ++ rest.take size) := by
  have hplaces := h.map_place?_left hmembers size
  rw [turn_of_ok (h.page_eq hmembers named)]
  refine ⟨h.sound, ?_, ?_, ?_⟩
  · show seen ++ rest.take size <+: reader.memory.store.members stream
    rw [hmembers, List.prefix_append_right_inj]
    exact List.take_prefix size rest
  · rw [positionBehind_append, ← h.next, position_getLast? hplaces, positionBehind]
    cases (rest.take size).getLast? <;> rfl
  · show (reader.pages ++ [_]).flatten.map Envelope.place? = _
    rw [List.flatten_append, List.map_append, h.places, List.flatten_singleton, hplaces,
      List.map_append]

theorem current_turn (named : stream ≠ "") (hcurrent : reader.Current seen) :
    (reader.turn supply stream size).Current (seen ++ rest.take size) := by
  rw [turn_of_ok (h.page_eq hmembers named)]
  show (reader.pages ++ [_]).flatten = _
  rw [List.flatten_append, hcurrent, List.flatten_singleton, List.filterMap_append]

/-- An empty page says that the whole stream has been seen. -/
theorem eq_members_of_page_nil (named : stream ≠ "") (positive : 1 ≤ size)
    (hpage : reader.page supply stream size = .ok []) :
    seen = reader.memory.store.members stream := by
  have hplaces := h.map_place?_left hmembers size
  rw [h.page_eq hmembers named] at hpage
  rw [Except.ok.inj hpage] at hplaces
  have htake : rest.take size = [] := (List.map_eq_nil_iff.mp hplaces.symm)
  obtain hsize | hrest := List.take_eq_nil_iff.mp htake
  · omega
  · rw [hmembers, hrest, List.append_nil]

end Seen

/-! ## What every run of the reader keeps -/

variable {others : Nat → List (LogCall ε)} {memory : Memory}

variable (supply size) in
/-- After any number of pages the reader has seen a beginning of the stream, and with fresh
identifiers its pages are what that reads as now. -/
theorem exists_seen_after (named : stream ≠ "") (hsound : memory.store.Sound)
    (spared : ∀ n, ∀ call ∈ others n, call ≠ .delete stream) (n : Nat) :
    let reader := after supply stream size others memory
    ∃ seen, (reader n).Seen stream seen ∧
      ((∀ i < n, FreshAlong supply (others i) (reader i).memory) → (reader n).Current seen) := by
  intro reader
  induction n with
  | zero => exact ⟨[], ⟨hsound, List.nil_prefix, rfl, rfl⟩, fun _ => rfl⟩
  | succ n ih =>
      obtain ⟨seen, hseen, hcurrent⟩ := ih
      have hmet := hseen.meanwhile supply (spared n)
      obtain ⟨rest, hrest⟩ := hmet.begun
      refine ⟨_, hmet.turn hrest.symm named, fun fresh => ?_⟩
      have hbefore := hcurrent fun i hi => fresh i (Nat.lt_succ_of_lt hi)
      exact hmet.current_turn hrest.symm named
        (hseen.current_meanwhile (spared n) (fresh n (Nat.lt_succ_self n)) hbefore)

/-- While no page is empty, every page brings something. -/
theorem le_length_pages {n : Nat}
    (answered : ∀ i < n, ∃ page,
      ((after supply stream size others memory i).meanwhile supply (others i)).page supply stream
        size = .ok page ∧ page ≠ []) :
    n ≤ (after supply stream size others memory n).pages.flatten.length := by
  induction n with
  | zero => exact Nat.zero_le _
  | succ n ih =>
      obtain ⟨page, hpage, hne⟩ := answered n (Nat.lt_succ_self n)
      have hpages := ih fun i hi => answered i (Nat.lt_succ_of_lt hi)
      have hpos := List.length_pos_of_ne_nil hne
      rw [after, turn_of_ok hpage]
      show n + 1 ≤ ((after supply stream size others memory n).pages ++ [page]).flatten.length
      rw [List.flatten_append, List.length_append, List.flatten_singleton]
      omega

/-- From when on nothing is put into the stream, it stays as long as it is. -/
theorem length_members_after {N : Nat}
    (spared : ∀ n, ∀ call ∈ others n, call ≠ .delete stream)
    (still : ∀ n, N ≤ n → ∀ call ∈ carriedOut supply (others n)
      (after supply stream size others memory n).memory, call.entries stream = [])
    (n : Nat) :
    ((after supply stream size others memory (N + n)).memory.store.members stream).length =
      ((after supply stream size others memory N).memory.store.members stream).length := by
  induction n with
  | zero => rfl
  | succ n ih =>
      have hnothing := List.flatMap_eq_nil_iff.mpr (still (N + n) (Nat.le_add_right N n))
      rw [← Nat.add_assoc, after, memory_turn]
      exact (Memory.length_members_converse _ (spared (N + n))).trans (by rw [hnothing, ih]; rfl)

end Reader

namespace Memory

variable [EventType ε]

/-- A reader reads any stream of a log from the beginning, in pages of any size, while others
put any calls to the log between its questions that do not delete the stream.

The log answers every question with a page. Whenever a page is empty, the pages show exactly
the memberships of the stream as it stands then, in order and each once, and if the others
draw their identifiers afresh, they are what an unfiltered read of the stream returns then,
envelope by envelope. If from some page on nothing is put into the stream any more, there is
an empty page. -/
theorem catch_up (supply : Nat → Draw) (earlier : List (LogCall ε))
    (others : Nat → List (LogCall ε)) {stream : String} {size : Nat} (named : stream ≠ "")
    (positive : 1 ≤ size) (spared : ∀ n, ∀ call ∈ others n, call ≠ .delete stream) :
    let start := (converse (access supply) earlier empty).2
    let reader := Reader.after supply stream size others start
    let asking := fun n => (reader n).meanwhile supply (others n)
    (∀ n, ∃ page, (asking n).page supply stream size = .ok page) ∧
    (∀ n, (asking n).page supply stream size = .ok [] →
      (reader n).pages.flatten.map Envelope.place? =
        ((asking n).memory.store.members stream).map some ∧
      ((∀ i ≤ n, FreshAlong supply (others i) (reader i).memory) →
        (reader n).pages.flatten = (asking n).memory.store.read stream)) ∧
    ((∃ N, ∀ n, N ≤ n → ∀ call ∈ carriedOut supply (others n) (reader n).memory,
        call.entries stream = []) →
      ∃ n, (asking n).page supply stream size = .ok []) := by
  intro start reader asking
  have hstart : start.store.Sound := sound_converse supply Store.Sound.empty earlier
  have hanswered : ∀ n, ∃ page, (asking n).page supply stream size = .ok page := by
    intro n
    obtain ⟨seen, hseen, -⟩ := Reader.exists_seen_after supply size named hstart spared n
    have hmet := hseen.meanwhile supply (spared n)
    obtain ⟨rest, hrest⟩ := hmet.begun
    exact ⟨_, hmet.page_eq hrest.symm named⟩
  refine ⟨hanswered, fun n hpage => ?_, fun ⟨N, still⟩ => ?_⟩
  · obtain ⟨seen, hseen, hcurrent⟩ := Reader.exists_seen_after supply size named hstart spared n
    have hmet := hseen.meanwhile supply (spared n)
    obtain ⟨rest, hrest⟩ := hmet.begun
    have hall := hmet.eq_members_of_page_nil hrest.symm named positive hpage
    refine ⟨hall ▸ hseen.places, fun fresh => ?_⟩
    have hbefore := hcurrent fun i hi => fresh i (Nat.le_of_lt hi)
    have hnow := hseen.current_meanwhile (spared n) (fresh n (Nat.le_refl n)) hbefore
    exact (hnow.trans (by rw [hall])).trans (Store.read_eq _ stream).symm
  · by_contra hnever
    have hne : ∀ i, ∃ page, (asking i).page supply stream size = .ok page ∧ page ≠ [] := by
      intro i
      obtain ⟨page, hpage⟩ := hanswered i
      exact ⟨page, hpage, fun hnil => hnever ⟨i, hnil ▸ hpage⟩⟩
    -- The pages would grow past the stream, which has stopped growing.
    let n := ((reader N).memory.store.members stream).length + 1
    have hpages : N + n ≤ (reader (N + n)).pages.flatten.length :=
      Reader.le_length_pages fun i _ => hne i
    obtain ⟨seen, hseen, -⟩ := Reader.exists_seen_after supply size named hstart spared (N + n)
    have hstream := Nat.le_trans hpages hseen.length_pages_le
    rw [Reader.length_members_after spared still n] at hstream
    exact Nat.not_succ_le_self _ (Nat.le_trans (Nat.le_add_left n N) hstream)

/-- Three notes are read in pages of two. Before the second page the first note is linked
behind them and another stream is written to, before the third a note is appended. -/
theorem catch_up_concurrent_writes :
    let note (text : String) : Envelope OrderEvent := .fresh "agg" (.raw "Noted" text)
    let one := (countingSupply 0).eventId 0
    let earlier := [.append "s" [note "1", note "2", note "3"] none]
    let others : Nat → List (LogCall OrderEvent)
      | 1 => [.append "x" [note "4"] none, .link "s" [one] (some 3)]
      | 2 => [.append "s" [note "5"] none]
      | _ => []
    let start := (converse (access countingSupply) earlier empty).2
    let reader := Reader.after countingSupply "s" 2 others start
    let asking := fun n => (reader n).meanwhile countingSupply (others n)
    (∀ n, ∀ call ∈ others n, call ≠ .delete "s") ∧
      (∃ n, (asking n).page countingSupply "s" 2 = .ok []) ∧
      (asking 3).page countingSupply "s" 2 = .ok [] ∧
      (∀ i ≤ 3, FreshAlong countingSupply (others i) (reader i).memory) ∧
      (reader 3).pages.flatten = (asking 3).memory.store.read "s" ∧
      (reader 3).pages.map List.length = [2, 2, 1] := by
  intro note one earlier others start reader asking
  have hspared : ∀ n, ∀ call ∈ others n, call ≠ .delete "s" := by
    intro n
    match n with
    | 0 => simp [others]
    | 1 => simp [others]
    | 2 => simp [others]
    | n + 3 => simp [others]
  have hlength : ((asking 3).page countingSupply "s" 2).map List.length = .ok 0 := by decide
  have hfresh : ∀ i ≤ 3, FreshAlong countingSupply (others i) (reader i).memory := by
    intro i hi
    match i with
    | 0 => trivial
    | 1 => exact ⟨⟨by decide, by decide⟩, ⟨by decide, by decide⟩, trivial⟩
    | 2 => exact ⟨⟨by decide, by decide⟩, trivial⟩
    | 3 => trivial
  obtain ⟨hanswered, hempty, hstops⟩ := catch_up countingSupply earlier others (by decide)
    (show 1 ≤ 2 by decide) hspared
  have hpage : (asking 3).page countingSupply "s" 2 = .ok [] := by
    obtain ⟨page, hpage⟩ := hanswered 3
    rw [hpage] at hlength
    rw [hpage, List.length_eq_zero_iff.mp (Except.ok.inj hlength)]
  obtain ⟨-, hread⟩ := hempty 3 hpage
  refine ⟨hspared, hstops ⟨3, fun n hn call hcall => ?_⟩, hpage, hfresh, hread hfresh, by decide⟩
  match n, hn with
  | n + 3, _ => cases hcall

end Memory

end EventLog
