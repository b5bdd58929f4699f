/-
# Streams that cannot be confused

The standard rule puts the lower-case type, a hash sign and the identifier one behind the other.
Identifiers are arbitrary and may hold hash signs themselves, so that two aggregates have two
streams is up to their types: the first hash sign of a stream ends the type, provided no type has
one of its own. Types that differ in case alone have the same streams.
-/

import EventLog.StreamNames
import Mathlib.Data.List.Basic

namespace EventLog

/-- Two types that are told apart by what the standard rule makes of them. -/
structure SeparateTypes (type other : String) : Prop where
  lowerCase_ne : Text.lowerCase type ≠ Text.lowerCase other
  notMem : '#' ∉ (Text.lowerCase type).toList
  notMem_other : '#' ∉ (Text.lowerCase other).toList

theorem toList_typeHashId (type id : String) :
    (typeHashId type id).toList = (Text.lowerCase type).toList ++ '#' :: id.toList := by
  rw [typeHashId, String.toList_append, String.toList_append, List.append_assoc]
  rfl

/-- Within a type, the identifier decides. -/
theorem typeHashId_inj_right {type id other : String} :
    typeHashId type id = typeHashId type other ↔ id = other :=
  String.append_right_inj _

/-- The type is what stands before the first hash sign. -/
theorem takeWhile_typeHashId {type : String} (h : '#' ∉ (Text.lowerCase type).toList)
    (id : String) :
    (typeHashId type id).toList.takeWhile (· ≠ '#') = (Text.lowerCase type).toList := by
  have hbefore : ∀ c ∈ (Text.lowerCase type).toList, decide (c ≠ '#') = true := by
    intro c hc
    exact decide_eq_true fun hhash => h (hhash ▸ hc)
  rw [toList_typeHashId, List.takeWhile_append_of_pos hbefore,
    List.takeWhile_cons_of_neg (by simp), List.append_nil]

/-- Types that are told apart never share a stream, whatever the identifiers. -/
theorem SeparateTypes.typeHashId_ne {type other : String} (h : SeparateTypes type other)
    (id otherId : String) : typeHashId type id ≠ typeHashId other otherId := by
  intro heq
  have htypes := congrArg (fun stream : String => stream.toList.takeWhile (· ≠ '#')) heq
  rw [takeWhile_typeHashId h.notMem, takeWhile_typeHashId h.notMem_other] at htypes
  exact h.lowerCase_ne (String.toList_inj.mp htypes)

/-- Different aggregates have different streams. -/
theorem typeHashId_ne {type other id otherId : String} (hne : (type, id) ≠ (other, otherId))
    (hseparate : type ≠ other → SeparateTypes type other) :
    typeHashId type id ≠ typeHashId other otherId := by
  by_cases htype : type = other
  · subst htype
    rw [Ne, typeHashId_inj_right]
    rintro rfl
    exact hne rfl
  · exact (hseparate htype).typeHashId_ne id otherId

namespace StreamNames

variable {names after : StreamNames} {rule : StreamRule} {types : List String}
  {type : String}

theorem streamOf_eq_ok (h : names.rules.get? type = some rule) (id : String) :
    names.streamOf type id = .ok (rule type id) := by
  rw [streamOf, h]

theorem get?_ne_none_of_streamOf {id stream : String} (h : names.streamOf type id = .ok stream) :
    names.rules.get? type ≠ none := by
  intro hnone
  rw [streamOf, hnone] at h
  cases h

/-- A registration that is not refused is of types without a rule, and gives them this one. -/
theorem get?_of_register_eq_ok (h : names.register rule types = .ok after) (type : String) :
    (type ∈ types → names.rules.get? type = none) ∧
      after.rules.get? type = if type ∈ types then some rule else names.rules.get? type := by
  rw [register] at h
  cases htaken : types.find? names.rules.contains with
  | some taken =>
      rw [htaken] at h
      cases h
  | none =>
      rw [htaken] at h
      cases h
      constructor
      · intro hmem
        have habsent := List.find?_eq_none.mp htaken type hmem
        simpa [Dictionary.contains] using habsent
      · have hrules := Dictionary.get?_foldl_insert
          (show ∀ entry ∈ types.map fun type => (type, rule), entry.1 = type → entry.2 = rule by
            simp) names.rules
        simpa [List.foldl_map, Function.comp_def] using hrules

end StreamNames

end EventLog
