/-
# Records laid out differently

What a record says does not depend on how it is laid out. `Relaid` lists the layouts that count
as the same: further members that are no fields, another order, an optional field left out or
given as `null`, and the array in place of the object. `Spoiled` is what no layout may be: a field
given twice, or a field missing that has to be there.

Both are about objects as they stand, with members in any order and of any number, while a reader
sees the values of its fields and nothing else (`fields?_of_legible`). So everything is shown once
for the reader of any record: a `RecordReader` is a list of fields with what is made of their
values, and it carries two laws about these values. That layouts do not matter
(`RecordReader.read_relaid`) and that spoiled objects are refused (`RecordReader.read_of_spoiled`)
follows from them.
-/

import EventLog.Json.Record
import Mathlib.Data.List.Forall2
import Mathlib.Data.List.Nodup

namespace EventLog.Json

/-! ## The members of an object -/

/-- The names in front of the members. -/
def memberNames (members : List (Option String × Json)) : List (Option String) :=
  members.map Prod.fst

/-- How often a name stands in front of a member. -/
def timesOf (name : String) (members : List (Option String × Json)) : Nat :=
  (memberNames members).count (some name)

/-- The value of the first member of a name. -/
def valueOf (name : String) (members : List (Option String × Json)) : Option Json :=
  (members.find? fun member => member.1 = some name).map Prod.snd

/-- Every name is a text, and none of `names` stands there twice. -/
structure Legible (names : List String) (members : List (Option String × Json)) : Prop where
  named : none ∉ memberNames members
  once : ∀ name ∈ names, timesOf name members ≤ 1

section Members

variable {name : String} {names : List String} {members later : List (Option String × Json)}

theorem memberNames_append (members later : List (Option String × Json)) :
    memberNames (members ++ later) = memberNames members ++ memberNames later :=
  List.map_append

theorem timesOf_append (name : String) (members later : List (Option String × Json)) :
    timesOf name (members ++ later) = timesOf name members + timesOf name later := by
  rw [timesOf, memberNames_append, List.count_append]
  rfl

theorem timesOf_eq_zero_iff : timesOf name members = 0 ↔ some name ∉ memberNames members :=
  List.count_eq_zero

theorem timesOf_cons (name : String) (member : Option String × Json)
    (members : List (Option String × Json)) :
    timesOf name (member :: members) =
      timesOf name members + if member.1 = some name then 1 else 0 := by
  rw [timesOf, memberNames, List.map_cons, List.count_cons]
  simp only [beq_iff_eq]
  rfl

theorem valueOf_cons (name : String) (member : Option String × Json)
    (members : List (Option String × Json)) :
    valueOf name (member :: members) =
      if member.1 = some name then some member.2 else valueOf name members := by
  rw [valueOf, List.find?_cons]
  by_cases hname : member.1 = some name
  · rw [if_pos hname, decide_eq_true hname]
    rfl
  · rw [if_neg hname, decide_eq_false hname]
    rfl

theorem valueOf_eq_none (h : timesOf name members = 0) : valueOf name members = none := by
  have habsent := timesOf_eq_zero_iff.mp h
  rw [valueOf, Option.map_eq_none_iff, List.find?_eq_none]
  intro member hmember
  rw [decide_eq_true_iff]
  exact fun hname => habsent (hname ▸ List.mem_map_of_mem hmember)

theorem valueOf_append (h : timesOf name later = 0) :
    valueOf name (members ++ later) = valueOf name members := by
  induction members with
  | nil => exact valueOf_eq_none h
  | cons member rest ih => rw [List.cons_append, valueOf_cons, valueOf_cons, ih]

/-- A name that stands there once belongs to its value. -/
theorem valueOf_eq_some_iff {value : Json} (h : timesOf name members ≤ 1) :
    valueOf name members = some value ↔ (some name, value) ∈ members := by
  induction members with
  | nil => exact iff_of_false nofun List.not_mem_nil
  | cons member rest ih =>
      obtain ⟨other, content⟩ := member
      rw [timesOf_cons] at h
      rw [valueOf_cons, List.mem_cons, Prod.mk.injEq]
      by_cases hname : other = some name
      · have hrest : timesOf name rest = 0 := by
          rw [if_pos hname] at h
          exact Nat.le_zero.mp (Nat.le_of_succ_le_succ h)
        have habsent : (some name, value) ∉ rest := fun hmember =>
          timesOf_eq_zero_iff.mp hrest (List.mem_map_of_mem hmember)
        rw [if_pos hname, Option.some_inj, hname]
        exact ⟨fun hvalue => .inl ⟨rfl, hvalue.symm⟩, fun hmember =>
          (hmember.resolve_right habsent).2.symm⟩
      · rw [if_neg hname, ih (Nat.le_of_add_right_le h)]
        exact ⟨.inr, fun hmember => hmember.resolve_left fun heq => hname heq.1.symm⟩

theorem timesOf_perm (h : members.Perm later) : timesOf name members = timesOf name later :=
  (h.map Prod.fst).count_eq _

theorem valueOf_perm (h : members.Perm later) (honce : timesOf name members ≤ 1) :
    valueOf name members = valueOf name later := by
  apply Option.ext
  intro value
  rw [valueOf_eq_some_iff honce, valueOf_eq_some_iff (timesOf_perm h ▸ honce), h.mem_iff]

theorem legible_iff : Legible names members ↔
    none ∉ memberNames members ∧ ∀ name ∈ names, timesOf name members ≤ 1 :=
  ⟨fun h => ⟨h.named, h.once⟩, fun h => ⟨h.1, h.2⟩⟩

theorem legible_perm (h : members.Perm later) :
    Legible names members ↔ Legible names later := by
  have hnames : (memberNames members).Perm (memberNames later) := h.map Prod.fst
  simp only [legible_iff, timesOf_perm h, hnames.mem_iff]

/-- It depends on the names alone. -/
theorem legible_congr (h : memberNames members = memberNames later) :
    Legible names members ↔ Legible names later := by
  simp only [legible_iff, timesOf, h]

/-- Members of other names do not make an object illegible. -/
theorem legible_append {added : List (Option String × Json)} (hnamed : none ∉ memberNames added)
    (hother : ∀ name ∈ names, timesOf name added = 0) :
    Legible names (members ++ added) ↔ Legible names members := by
  rw [legible_iff, legible_iff, memberNames_append, List.mem_append, not_or,
    and_iff_left hnamed]
  refine and_congr_right fun _ => forall₂_congr fun name hname => ?_
  rw [timesOf_append, hother name hname, Nat.add_zero]

/-- Nor does a member of one of the names, if there was none. -/
theorem legible_cons (h : some name ∉ memberNames members) (value : Json) :
    Legible names ((some name, value) :: members) ↔ Legible names members := by
  have hnames : none ∉ memberNames ((some name, value) :: members) ↔
      none ∉ memberNames members := by simp [memberNames]
  rw [legible_iff, legible_iff, hnames]
  refine and_congr_right fun _ => forall₂_congr fun other _ => ?_
  rw [timesOf_cons]
  by_cases hname : some name = some other
  · rw [← Option.some.inj hname, timesOf_eq_zero_iff.mpr h]
    simp
  · rw [if_neg hname, Nat.add_zero]

end Members

/-! ## What a reader of records sees -/

section Fields

variable {names : List String} {members : List (Option String × Json)}

theorem named?_record (members : List (String × Json)) :
    named? (members.map fun member => (some member.1, member.2)) = some members := by
  induction members with
  | nil => rfl
  | cons member rest ih =>
      rw [named?, List.map_cons, List.mapM_cons]
      show (named? (rest.map fun member => (some member.1, member.2))).bind _ = _
      rw [ih]
      rfl

/-- Names that are all texts can be read. -/
theorem exists_record (h : none ∉ memberNames members) :
    ∃ read : List (String × Json),
      members = read.map fun member => (some member.1, member.2) := by
  induction members with
  | nil => exact ⟨[], rfl⟩
  | cons member rest ih =>
      obtain ⟨hfirst, hrest⟩ := not_or.mp (mt List.mem_cons.mpr h)
      obtain ⟨read, rfl⟩ := ih hrest
      obtain ⟨_ | name, value⟩ := member
      · exact absurd rfl hfirst
      · exact ⟨(name, value) :: read, rfl⟩

theorem named?_eq_none (h : none ∈ memberNames members) : named? members = none := by
  induction members with
  | nil => cases h
  | cons member rest ih =>
      obtain ⟨_ | name, value⟩ := member
      · rfl
      · have hrest := ih ((List.mem_cons.mp h).resolve_left nofun)
        rw [named?] at hrest
        rw [named?, List.mapM_cons, hrest]
        rfl

theorem occurrences_eq (name : String) (read : List (String × Json)) :
    occurrences name read = timesOf name (read.map fun member => (some member.1, member.2)) := by
  rw [timesOf, memberNames, List.map_map, List.count, List.countP_map, occurrences]
  refine List.countP_congr fun member _ => ?_
  simp

theorem member?_eq (name : String) (read : List (String × Json)) :
    member? name read = valueOf name (read.map fun member => (some member.1, member.2)) := by
  induction read with
  | nil => rfl
  | cons member rest ih =>
      obtain ⟨other, value⟩ := member
      rw [member?, List.map_cons, valueOf_cons, ih]
      simp only [Option.some_inj]

/-- A reader sees the values of its fields. -/
theorem fields?_of_legible (h : Legible names members) :
    fields? names (.object members) = some (names.map fun name => valueOf name members) := by
  obtain ⟨read, rfl⟩ := exists_record h.named
  have hall : (names.all fun name => decide (occurrences name read ≤ 1)) = true := by
    rw [List.all_eq_true]
    intro name hname
    rw [decide_eq_true_iff, occurrences_eq]
    exact h.once name hname
  rw [fields?, named?_record]
  show (if _ then _ else _) = _
  rw [if_pos hall]
  simp only [member?_eq]

theorem fields?_of_not_legible (h : ¬ Legible names members) :
    fields? names (.object members) = none := by
  by_cases hnamed : none ∈ memberNames members
  · rw [fields?, named?_eq_none hnamed]
    rfl
  · obtain ⟨read, rfl⟩ := exists_record hnamed
    have hall : ¬ (names.all fun name => decide (occurrences name read ≤ 1)) = true := by
      rw [List.all_eq_true]
      intro hall
      refine h ⟨hnamed, fun name hname => ?_⟩
      rw [← occurrences_eq]
      exact of_decide_eq_true (hall name hname)
    rw [fields?, named?_record]
    exact if_neg hall

/-- A record has the fields it was made of. -/
theorem fields?_record (names : List String) (values : List Json) (distinct : names.Nodup)
    (h : names.length = values.length) :
    fields? names (record (names.zip values)) = some (values.map some) := by
  have hfirst : (names.zip values).map Prod.fst = names := List.map_fst_zip (Nat.le_of_eq h)
  have hsecond : (names.zip values).map Prod.snd = values :=
    List.map_snd_zip (Nat.le_of_eq h.symm)
  let members := (names.zip values).map fun member => (some member.1, member.2)
  have hnames : memberNames members = names.map some := by
    rw [memberNames, List.map_map, ← hfirst, List.map_map, hfirst]
    rfl
  have honce (name : String) : timesOf name members ≤ 1 := by
    rw [timesOf, hnames]
    exact List.nodup_iff_count_le_one.mp (distinct.map fun _ _ heq => Option.some.inj heq) _
  have hlegible : Legible names members := by
    refine ⟨?_, fun name _ => honce name⟩
    rw [hnames]
    exact fun hnone => nomatch List.mem_map.mp hnone
  have hvalues : names.map (fun name => valueOf name members) = values.map some := by
    conv => lhs; rw [← hfirst]
    conv => rhs; rw [← hsecond]
    rw [List.map_map, List.map_map]
    refine List.map_congr_left fun member hmember => ?_
    exact (valueOf_eq_some_iff (honce member.1)).mpr
      (List.mem_map.mpr ⟨member, hmember, rfl⟩)
  exact (fields?_of_legible hlegible).trans (congrArg some hvalues)

end Fields

/-- A list is not read without each of its items. -/
theorem asList_eq_none {α : Type} {decode : Json → Option α} {items : List Json}
    (h : ∃ item ∈ items, decode item = none) : asList decode (.array items) = none := by
  show items.mapM decode = none
  induction items with
  | nil =>
      obtain ⟨item, hitem, -⟩ := h
      cases hitem
  | cons item rest ih =>
      rw [List.mapM_cons]
      obtain ⟨refused, hmember, hnone⟩ := h
      rcases List.mem_cons.mp hmember with rfl | hrest
      · rw [hnone]
        rfl
      · rw [ih ⟨refused, hrest, hnone⟩]
        cases decode item <;> rfl

/-! ## Layouts -/

/-- A field of a record, and whether it may be left out. -/
structure Field where
  name : String
  optional : Bool
deriving DecidableEq

/-- Two layouts of one record with these fields, whose values are the same up to `same`. -/
inductive Relaid (fields : List Field) (same : Json → Json → Prop) : Json → Json → Prop
  /-- Nothing has changed. -/
  | refl (v : Json) : Relaid fields same v v
  /-- The same members with further ones that are no fields, in any order. -/
  | object {members kept added later : List (Option String × Json)}
      (hkept : members.Forall₂ (fun old new => old.1 = new.1 ∧ same old.2 new.2) kept)
      (hadded : ∀ member ∈ added, ∃ name, member.1 = some name ∧ name ∉ fields.map Field.name)
      (hlater : later.Perm (kept ++ added)) :
      Relaid fields same (.object members) (.object later)
  /-- An optional field is left out where it was `null`. -/
  | leftOut {field : Field} {front back : List (Option String × Json)} (h : field ∈ fields)
      (hoptional : field.optional = true)
      (habsent : some field.name ∉ memberNames (front ++ back)) :
      Relaid fields same (.object (front ++ (some field.name, .null) :: back))
        (.object (front ++ back))
  /-- All fields, in the order of their declaration. -/
  | array {values : List Json} (h : values.length = fields.length) :
      Relaid fields same (.record ((fields.map Field.name).zip values)) (.array values)

/-- A field is given twice, or one is missing that has to be there. -/
def Spoiled (fields : List Field) (members : List (Option String × Json)) : Prop :=
  ∃ field ∈ fields, 1 < timesOf field.name members ∨
    field.optional = false ∧ timesOf field.name members = 0

/-- What two layouts give for one field. -/
inductive Agrees (same : Json → Json → Prop) (field : Field) : Option Json → Option Json → Prop
  | absent : Agrees same field none none
  | given {v w : Json} (h : same v w) : Agrees same field (some v) (some w)
  | leftOut (h : field.optional = true) : Agrees same field (some .null) none

section Agreement

variable {same : Json → Json → Prop} {α : Type} {decode : Json → Option α} {field : Field}
  {old new : Option Json}

theorem agrees_refl (hsame : ∀ v, same v v) (field : Field) (value : Option Json) :
    Agrees same field value value := by
  cases value with
  | none => exact .absent
  | some v => exact .given (hsame v)

theorem Agrees.required (h : Agrees same field old new) (hrequired : field.optional = false)
    (hdecode : ∀ {v w}, same v w → decode v = decode w) :
    Json.required decode old = Json.required decode new := by
  cases h with
  | absent => rfl
  | given h => exact hdecode h
  | leftOut hoptional => cases hrequired.symm.trans hoptional

theorem Agrees.optional (h : Agrees same field old new)
    (hnull : ∀ {v w}, same v w → (v = .null ↔ w = .null))
    (hdecode : ∀ {v w}, same v w → decode v = decode w) :
    Json.optional decode old = Json.optional decode new := by
  cases h with
  | absent => rfl
  | leftOut _ => rfl
  | @given v w h =>
      by_cases hv : v = .null
      · rw [hv, (hnull h).mp hv]
      · have hw := mt (hnull h).mpr hv
        rw [Json.optional, Json.optional, hdecode h]
        · exact hw
        · exact hv

variable {members kept : List (Option String × Json)}
  (hkept : members.Forall₂ (fun old new => old.1 = new.1 ∧ same old.2 new.2) kept)

include hkept

theorem memberNames_kept : memberNames kept = memberNames members := by
  induction hkept with
  | nil => rfl
  | cons h _ ih => exact congrArg₂ List.cons h.1.symm ih

theorem agrees_kept (field : Field) :
    Agrees same field (valueOf field.name members) (valueOf field.name kept) := by
  induction hkept with
  | nil => exact .absent
  | cons h _ ih =>
      rw [valueOf_cons, valueOf_cons, ← h.1]
      split
      · exact .given h.2
      · exact ih

end Agreement

/-- A way of reading records: the fields, and what their values make up. Values that agree make
up the same, and nothing is made up without a field that has to be there. -/
structure RecordReader (same : Json → Json → Prop) (α : Type) where
  fields : List Field
  build : List (Option Json) → Option α
  distinct : (fields.map Field.name).Nodup
  build_agree : ∀ {olds news : String → Option Json},
    (∀ field ∈ fields, Agrees same field (olds field.name) (news field.name)) →
    build ((fields.map Field.name).map olds) = build ((fields.map Field.name).map news)
  build_missing : ∀ {values : String → Option Json}, ∀ field ∈ fields, field.optional = false →
    values field.name = none → build ((fields.map Field.name).map values) = none

namespace RecordReader

variable {same : Json → Json → Prop} {α : Type} (r : RecordReader same α)

def names : List String := r.fields.map Field.name

/-- What a record reads as. -/
def read (v : Json) : Option α := (fields? r.names v).bind r.build

/-- Objects that are legible alike and agree on the fields read as the same. -/
theorem read_of_agrees {members later : List (Option String × Json)}
    (hlegible : Legible r.names later ↔ Legible r.names members)
    (h : Legible r.names members → ∀ field ∈ r.fields,
      Agrees same field (valueOf field.name members) (valueOf field.name later)) :
    r.read (.object later) = r.read (.object members) := by
  by_cases hmembers : Legible r.names members
  · rw [read, read, fields?_of_legible hmembers, fields?_of_legible (hlegible.mpr hmembers)]
    exact (r.build_agree (h hmembers)).symm
  · rw [read, read, fields?_of_not_legible hmembers,
      fields?_of_not_legible (mt hlegible.mp hmembers)]

/-- The same members and further ones, in any order. -/
theorem read_object {members kept added later : List (Option String × Json)}
    (hkept : members.Forall₂ (fun old new => old.1 = new.1 ∧ same old.2 new.2) kept)
    (hadded : ∀ member ∈ added, ∃ name, member.1 = some name ∧ name ∉ r.names)
    (hlater : later.Perm (kept ++ added)) : r.read (.object later) = r.read (.object members) := by
  have hnamed : none ∉ memberNames added := by
    intro hnone
    obtain ⟨member, hmember, heq⟩ := List.mem_map.mp hnone
    obtain ⟨name, hname, -⟩ := hadded member hmember
    exact nomatch hname.symm.trans heq
  have hother (name : String) (hname : name ∈ r.names) : timesOf name added = 0 := by
    rw [timesOf_eq_zero_iff, memberNames, List.mem_map]
    rintro ⟨member, hmember, heq⟩
    obtain ⟨other, hother, hnot⟩ := hadded member hmember
    exact hnot (Option.some.inj (hother.symm.trans heq) ▸ hname)
  have hlegible : Legible r.names (kept ++ added) ↔ Legible r.names members :=
    (legible_append hnamed hother).trans (legible_congr (memberNames_kept hkept))
  -- A field is found among the members that were there, since the others have other names.
  refine r.read_of_agrees ((legible_perm hlater).trans hlegible) fun hmembers field hfield => ?_
  have hname : field.name ∈ r.names := List.mem_map_of_mem hfield
  have honce := (hlegible.mpr hmembers).once field.name hname
  rw [← valueOf_perm hlater.symm honce, valueOf_append (hother field.name hname)]
  exact agrees_kept hkept field

/-- An optional field that is `null`, or left out. -/
theorem read_leftOut (hsame : ∀ v, same v v) {field : Field}
    {front back : List (Option String × Json)} (h : field ∈ r.fields)
    (hoptional : field.optional = true) (habsent : some field.name ∉ memberNames (front ++ back)) :
    r.read (.object (front ++ back)) =
      r.read (.object (front ++ (some field.name, .null) :: back)) := by
  have hperm : (front ++ (some field.name, Json.null) :: back).Perm
      ((some field.name, .null) :: (front ++ back)) := List.perm_middle
  have hlegible : Legible r.names (front ++ back) ↔
      Legible r.names (front ++ (some field.name, .null) :: back) :=
    (legible_cons habsent .null).symm.trans (legible_perm hperm).symm
  -- Only the field that is left out is seen differently, and it may be.
  refine r.read_of_agrees hlegible fun hmembers other hother => ?_
  have hname : other.name ∈ r.names := List.mem_map_of_mem hother
  rw [valueOf_perm hperm (hmembers.once other.name hname), valueOf_cons]
  by_cases heq : some field.name = some other.name
  · have hsame : other = field :=
      List.inj_on_of_nodup_map r.distinct hother h (Option.some.inj heq).symm
    subst hsame
    rw [if_pos rfl, valueOf_eq_none (timesOf_eq_zero_iff.mpr habsent)]
    exact .leftOut hoptional
  · rw [if_neg heq]
    exact agrees_refl hsame other _

theorem read_array {values : List Json} (h : values.length = r.fields.length) :
    r.read (.array values) = r.read (.record (r.names.zip values)) := by
  have hlength : values.length = r.names.length := by rw [names, List.length_map, h]
  have hrecord := fields?_record r.names values r.distinct hlength.symm
  rw [read, read, hrecord, fields?, if_pos hlength]

/-- Layouts do not matter. -/
theorem read_relaid (hsame : ∀ v, same v v) {v w : Json} (h : Relaid r.fields same v w) :
    r.read w = r.read v := by
  cases h with
  | refl => rfl
  | object hkept hadded hlater => exact r.read_object hkept hadded hlater
  | leftOut h hoptional habsent => exact r.read_leftOut hsame h hoptional habsent
  | array h => exact r.read_array h

/-- Spoiled objects are refused. -/
theorem read_of_spoiled {members : List (Option String × Json)} (h : Spoiled r.fields members) :
    r.read (.object members) = none := by
  obtain ⟨field, hfield, hspoiled⟩ := h
  have hname : field.name ∈ r.names := List.mem_map_of_mem hfield
  by_cases hlegible : Legible r.names members
  · obtain ⟨hrequired, habsent⟩ := hspoiled.resolve_left
      (Nat.not_lt.mpr (hlegible.once field.name hname))
    rw [read, fields?_of_legible hlegible]
    exact r.build_missing field hfield hrequired (valueOf_eq_none habsent)
  · rw [read, fields?_of_not_legible hlegible]
    rfl

end RecordReader

end EventLog.Json
