/-
# Clauses, placeholders and values

The SELECT for a read is put together from the filters that happen to be set, and the number
of a placeholder depends on how many of them come before it. `Select.Binds` says of a SELECT
that each of its clauses is nevertheless about the value that the read has for it. What the
SELECT selects and where it stops follows from that alone, and nothing after this module
refers to a placeholder any more.
-/

import EventLog.Postgres.Tables

namespace EventLog.Postgres

/-! ## Clauses and their values -/

/-- The filters that a read sets besides its stream, each with its value, in the order in which
they are written. -/
def clausesOf (spec : ReadSpec) : List (Filter × Param) :=
  (spec.fromTime.map fun t => (.storedSince, .time t)).toList ++
    (spec.toTime.map fun t => (.storedUntil, .time t)).toList ++
    (spec.fromPosition.map fun n => (.positionFrom, .int n)).toList ++
    (spec.toPosition.map fun n => (.positionTo, .int n)).toList ++
    (spec.eventIds.map fun ids => (.eventAmong, .uuids ids)).toList

namespace Select

/-- Every placeholder of a SELECT stands for what its clause is about, and the placeholders are
numbered as the values are bound: the stream first, then the conditions, then the limit. -/
structure Binds (s : Select) (spec : ReadSpec) : Prop where
  stream : s.valueOf s.stream = some (.text spec.stream)
  conditions : s.conditions.map (fun c => (c.filter, s.valueOf c.placeholder)) =
    (clausesOf spec).map fun clause => (clause.1, some clause.2)
  limit : s.limit.map s.valueOf = spec.limit.map fun k : Nat => some (.int (min k maxInt8))
  direction : s.direction = spec.direction
  numbered : s.stream :: s.conditions.map Condition.placeholder ++ s.limit.toList =
    List.range' 1 s.params.length

/-- Add a condition for each of these. -/
def restrictAll (s : Select) (clauses : List (Filter × Param)) : Select :=
  clauses.foldl (fun s clause => s.restrict clause.1 (some clause.2)) s

theorem restrictAll_append (s : Select) (first second : List (Filter × Param)) :
    s.restrictAll (first ++ second) = (s.restrictAll first).restrictAll second :=
  List.foldl_append

theorem restrict_map {α : Type} (s : Select) (filter : Filter) (value : α → Param)
    (bound : Option α) :
    s.restrict filter (bound.map value) =
      s.restrictAll (bound.map fun a => (filter, value a)).toList := by
  cases bound <;> rfl

theorem ofSpec_eq_restrictAll (spec : ReadSpec) :
    ofSpec spec =
      ((ofStream spec.stream spec.direction).restrictAll (clausesOf spec)).limitTo spec.limit := by
  rw [ofSpec, clausesOf, restrictAll_append, restrictAll_append, restrictAll_append,
    restrictAll_append, restrict_map, restrict_map, restrict_map, restrict_map, restrict_map]

/-- The conditions are numbered on from the values there are. -/
theorem restrictAll_eq (s : Select) (clauses : List (Filter × Param)) :
    s.restrictAll clauses =
      { s with
        conditions := s.conditions ++
          clauses.mapIdx fun i clause => ⟨clause.1, s.params.length + i + 1⟩
        params := s.params ++ clauses.map Prod.snd } := by
  induction clauses generalizing s with
  | nil => simp [restrictAll]
  | cons clause rest ih =>
      show (s.restrict clause.1 (some clause.2)).restrictAll rest = _
      rw [ih]
      simp [restrict, List.mapIdx_cons, Nat.add_comm, Nat.add_left_comm]

theorem ofSpec_eq (spec : ReadSpec) :
    ofSpec spec =
      { stream := 1
        conditions := (clausesOf spec).mapIdx fun i clause => ⟨clause.1, i + 2⟩
        direction := spec.direction
        limit := spec.limit.map fun _ => (clausesOf spec).length + 2
        params := .text spec.stream :: (clausesOf spec).map Prod.snd ++
          (spec.limit.map fun k : Nat => Param.int (min k maxInt8)).toList } := by
  rw [ofSpec_eq_restrictAll, restrictAll_eq]
  cases spec.limit with
  | none => simp [limitTo, ofStream, Nat.add_comm, Nat.add_left_comm]
  | some k =>
      simp [limitTo, ofStream, Nat.add_comm, Nat.add_left_comm]
      omega

theorem binds_ofSpec (spec : ReadSpec) : (ofSpec spec).Binds spec := by
  rw [ofSpec_eq]
  refine ⟨rfl, ?conditions, ?limit, rfl, ?numbered⟩
  case conditions =>
    apply List.ext_getElem?
    intro i
    rw [List.getElem?_map, List.getElem?_mapIdx, List.getElem?_map]
    cases hclause : (clausesOf spec)[i]? with
    | none => rfl
    | some clause =>
        have hlt : i < ((clausesOf spec).map Prod.snd).length := by
          rw [List.length_map]
          exact (List.getElem?_eq_some_iff.mp hclause).1
        simp [valueOf, List.getElem?_append_left hlt, hclause]
  case limit =>
    cases spec.limit with
    | none => rfl
    | some k => simp [valueOf]
  case numbered =>
    have hplaceholders : ((clausesOf spec).mapIdx fun i clause =>
        (⟨clause.1, i + 2⟩ : Condition)).map Condition.placeholder =
          List.range' 2 (clausesOf spec).length := by
      apply List.ext_getElem?
      intro i
      by_cases hlt : i < (clausesOf spec).length
      · simp [hlt, Nat.add_comm]
      · simp [hlt]
    dsimp only
    rw [hplaceholders]
    cases spec.limit with
    | none => simp [List.range'_succ]
    | some k =>
        have hlength : (Param.text spec.stream :: (clausesOf spec).map Prod.snd ++
            [Param.int (min k maxInt8)]).length = (clausesOf spec).length + 1 + 1 := by
          simp
        rw [Option.map_some, Option.map_some, Option.toList_some, Option.toList_some, hlength,
          List.range'_succ, List.range'_concat]
        simp [Nat.add_comm]

end Select

/-! ## What the clauses mean -/

/-- The same read with a limit that an eight-byte integer holds. -/
def capped (spec : ReadSpec) : ReadSpec :=
  { spec with limit := spec.limit.map fun k => min k maxInt8 }

/-- A row passes the clauses if the read admits it. -/
theorem all_clausesOf (spec : ReadSpec) (row : JoinedRow) :
    ((clausesOf spec).all fun clause => clause.1.holds (some clause.2) row) =
      spec.admits row.1.position row.2.createdAt row.1.row.eventId := by
  have hbound : ∀ {α : Type} (bound : Option α) (filter : Filter) (value : α → Param),
      ((bound.map fun a => (filter, value a)).toList.all fun clause =>
        clause.1.holds (some clause.2) row) =
          ReadSpec.holdsOf bound fun a => filter.holds (some (value a)) row := by
    intro α bound filter value
    cases bound with
    | none => rfl
    | some a => exact Bool.and_true _
  rw [clausesOf, List.all_append, List.all_append, List.all_append, List.all_append, hbound,
    hbound, hbound, hbound, hbound]
  rfl

namespace Select.Binds

variable {s : Select} {spec : ReadSpec} (h : s.Binds spec)

include h

theorem selects_iff {row : JoinedRow} : s.selects row = true ↔
    row.1.row.stream = spec.stream ∧
      spec.admits row.1.position row.2.createdAt row.1.row.eventId = true := by
  have hall : (s.conditions.all fun c => c.filter.holds (s.valueOf c.placeholder) row) =
      spec.admits row.1.position row.2.createdAt row.1.row.eventId := by
    have hconditions := congrArg (fun list : List (Filter × Option Param) =>
      list.all fun clause => clause.1.holds clause.2 row) h.conditions
    rw [List.all_map, List.all_map] at hconditions
    exact hconditions.trans (all_clausesOf spec row)
  rw [selects, hall, h.stream, Bool.and_eq_true, decide_eq_true_iff, Option.some.injEq,
    Param.text.injEq, eq_comm]

theorem limited_eq (rows : List JoinedRow) : s.limited rows = (capped spec).limited rows := by
  rw [limited, h.limit]
  unfold capped ReadSpec.limited
  cases spec.limit with
  | none => rfl
  | some k =>
      have htoNat : (min (k : Int) maxInt8).toNat = min k maxInt8 := by omega
      show rows.take (min (k : Int) maxInt8).toNat = rows.take (min k maxInt8)
      rw [htoNat]

end Select.Binds

end EventLog.Postgres
