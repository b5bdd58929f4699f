/-
# Entries under their keys

A dictionary has one entry for each of its keys. So finding a value under a key is having the
entry (`Dictionary.get?_eq_some_iff_mem`), and to give a key the value it has already is to do
nothing at all, the order of the entries included (`Dictionary.insert_of_get?`). Entries in another
order are found all the same (`Dictionary.get?_of_perm`), and written out and put in again they are
the dictionary they were (`Dictionary.ofList_entries`).
-/

import EventLog.Dictionary

namespace EventLog.Dictionary

variable {κ ν : Type} [DecidableEq κ]

theorem find_eq_some_iff_mem {k : κ} {v : ν} {entries : List (κ × ν)}
    (distinct : (entries.map Prod.fst).Nodup) :
    find k entries = some v ↔ (k, v) ∈ entries := by
  induction entries with
  | nil => simp [find]
  | cons entry rest ih =>
      obtain ⟨key, value⟩ := entry
      rw [List.map_cons, List.nodup_cons] at distinct
      by_cases h : key = k
      · subst h
        have hrest : (key, v) ∉ rest := fun hmem =>
          distinct.1 (List.mem_map.mpr ⟨(key, v), hmem, rfl⟩)
        simp [find, hrest, eq_comm]
      · have hne : ¬ k = key := fun heq => h heq.symm
        simp [find, h, hne, ih distinct.2]

/-- What is found under a key is the entry that has the key. -/
theorem get?_eq_some_iff_mem {d : Dictionary κ ν} {k : κ} {v : ν} :
    d.get? k = some v ↔ (k, v) ∈ d.entries :=
  find_eq_some_iff_mem d.keys_nodup

/-- What is found under the keys does not depend on the order of the entries. -/
theorem get?_of_perm {d e : Dictionary κ ν} (h : d.entries.Perm e.entries) : d.get? = e.get? := by
  funext k
  refine Option.ext fun v => ?_
  rw [get?_eq_some_iff_mem, get?_eq_some_iff_mem, h.mem_iff]

theorem put_of_find {k : κ} {v : ν} {entries : List (κ × ν)} (h : find k entries = some v) :
    put k v entries = entries := by
  induction entries with
  | nil => cases h
  | cons entry rest ih =>
      obtain ⟨key, value⟩ := entry
      by_cases hkey : key = k
      · subst hkey
        simpa [find, put, eq_comm] using h
      · simp only [find, put, if_neg hkey] at h ⊢
        rw [ih h]

/-- A key that is given the value it has leaves everything as it is. -/
theorem insert_of_get? {d : Dictionary κ ν} {k : κ} {v : ν} (h : d.get? k = some v) :
    d.insert k v = d :=
  ext (put_of_find h)

theorem insertIfNew_of_get? {d : Dictionary κ ν} {k : κ} {v : ν} (h : d.get? k = some v)
    (w : ν) : d.insertIfNew k w = d := by
  rw [insertIfNew, contains, h]
  rfl

/-- A key that is new comes last. -/
theorem put_of_not_mem {k : κ} {entries : List (κ × ν)} (h : k ∉ entries.map Prod.fst) (v : ν) :
    put k v entries = entries ++ [(k, v)] := by
  induction entries with
  | nil => rfl
  | cons entry rest ih =>
      rw [List.map_cons, List.mem_cons, not_or] at h
      rw [put, if_neg (Ne.symm h.1), ih h.2, List.cons_append]

theorem entries_foldl_insert {entries : List (κ × ν)} {d : Dictionary κ ν}
    (distinct : ((d.entries ++ entries).map Prod.fst).Nodup) :
    (entries.foldl (fun d entry => d.insert entry.1 entry.2) d).entries = d.entries ++ entries := by
  induction entries generalizing d with
  | nil => exact (List.append_nil _).symm
  | cons entry rest ih =>
      have hnew : entry.1 ∉ d.entries.map Prod.fst := by
        rw [List.map_append, List.map_cons] at distinct
        exact fun hmem => (List.nodup_append.mp distinct).2.2 _ hmem _ List.mem_cons_self rfl
      have hinsert : (d.insert entry.1 entry.2).entries = d.entries ++ [entry] :=
        put_of_not_mem hnew entry.2
      rw [List.append_cons] at distinct
      rw [List.foldl_cons, ih (hinsert ▸ distinct), hinsert, List.append_assoc]
      rfl

/-- A dictionary is made of its entries. -/
theorem ofList_entries (d : Dictionary κ ν) : ofList d.entries = d :=
  ext ((entries_foldl_insert d.keys_nodup).trans (List.nil_append _))

end EventLog.Dictionary
