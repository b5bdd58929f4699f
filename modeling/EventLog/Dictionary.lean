/-
# Dictionaries in order of arrival

Headers, registries, the tables of a store and the subscriptions of a bus are all
small maps, and what is read off them must depend on nothing but the operations
performed. A dictionary is therefore the list of its entries in the order in which
their keys first arrived; no key occurs twice. Each operation comes with the law
that says what it does to `get?` and to the keys, and later modules use only those.
-/

namespace EventLog

/-- Entries in the order in which their keys first arrived. -/
structure Dictionary (κ ν : Type) where
  entries : List (κ × ν)
  keys_nodup : (entries.map Prod.fst).Nodup

namespace Dictionary

variable {κ ν : Type}

/-- The entries determine the dictionary. -/
theorem ext {d e : Dictionary κ ν} (h : d.entries = e.entries) : d = e := by
  cases d; cases e; cases h; rfl

def empty : Dictionary κ ν := ⟨[], by simp⟩

instance : Inhabited (Dictionary κ ν) := ⟨empty⟩

def keys (d : Dictionary κ ν) : List κ := d.entries.map Prod.fst

def values (d : Dictionary κ ν) : List ν := d.entries.map Prod.snd

def size (d : Dictionary κ ν) : Nat := d.entries.length

section Lists

variable [DecidableEq κ]

/-- The value of the first entry under `k`. -/
def find (k : κ) : List (κ × ν) → Option ν
  | [] => none
  | entry :: rest => if entry.1 = k then some entry.2 else find k rest

/-- Give `k` the value `v`: in its old place if it has one, else at the end. -/
def put (k : κ) (v : ν) : List (κ × ν) → List (κ × ν)
  | [] => [(k, v)]
  | entry :: rest => if entry.1 = k then (k, v) :: rest else entry :: put k v rest

theorem find_eq_none_iff {k : κ} {entries : List (κ × ν)} :
    find k entries = none ↔ k ∉ entries.map Prod.fst := by
  induction entries with
  | nil => simp [find]
  | cons entry rest ih =>
    by_cases h : entry.1 = k
    · simp [find, h]
    · simp [find, h, ih, Ne.symm h]

theorem map_fst_put (k : κ) (v : ν) (entries : List (κ × ν)) :
    (put k v entries).map Prod.fst =
      if k ∈ entries.map Prod.fst then entries.map Prod.fst
      else entries.map Prod.fst ++ [k] := by
  induction entries with
  | nil => simp [put]
  | cons entry rest ih =>
    by_cases h : entry.1 = k
    · simp [put, h]
    · by_cases hk : k ∈ rest.map Prod.fst <;> simp_all [put, Ne.symm h]

theorem find_put (k k' : κ) (v : ν) (entries : List (κ × ν)) :
    find k' (put k v entries) = if k = k' then some v else find k' entries := by
  induction entries with
  | nil => simp [put, find]
  | cons entry rest ih =>
    by_cases h : entry.1 = k
    · by_cases h' : k = k' <;> simp_all [put, find]
    · by_cases h' : k = k'
      · subst h'; simp_all [put, find]
      · simp only [put, h, if_false, find, ih, h']

theorem find_filter_ne (k k' : κ) (entries : List (κ × ν)) :
    find k' (entries.filter (fun entry => entry.1 ≠ k)) =
      if k = k' then none else find k' entries := by
  induction entries with
  | nil => simp [find]
  | cons entry rest ih =>
    by_cases h : entry.1 = k
    · by_cases h' : k = k' <;> simp_all [find]
    · by_cases h' : k = k'
      · subst h'; simp_all [find]
      · simp_all [find]

end Lists

variable [DecidableEq κ]

def get? (d : Dictionary κ ν) (k : κ) : Option ν := find k d.entries

def contains (d : Dictionary κ ν) (k : κ) : Bool := (d.get? k).isSome

/-- Give `k` the value `v`. A key that is already present keeps its place. -/
def insert (d : Dictionary κ ν) (k : κ) (v : ν) : Dictionary κ ν where
  entries := put k v d.entries
  keys_nodup := by
    rw [map_fst_put]
    split
    · exact d.keys_nodup
    · rename_i h
      simpa [List.nodup_append, d.keys_nodup] using
        fun a b hab hak => h (by simpa using ⟨b, hak ▸ hab⟩)

/-- Give `k` the value `v` unless it already has one. -/
def insertIfNew (d : Dictionary κ ν) (k : κ) (v : ν) : Dictionary κ ν :=
  if d.contains k then d else d.insert k v

/-- Replace the value under `k`, or its absence, by `f` of it. -/
def modify (d : Dictionary κ ν) (k : κ) (f : Option ν → ν) : Dictionary κ ν :=
  d.insert k (f (d.get? k))

def erase (d : Dictionary κ ν) (k : κ) : Dictionary κ ν where
  entries := d.entries.filter (fun entry => entry.1 ≠ k)
  keys_nodup := d.keys_nodup.sublist (List.filter_sublist.map _)

/-- Later values win, and a key stays where it first stood. -/
def ofList (entries : List (κ × ν)) : Dictionary κ ν :=
  entries.foldl (fun d entry => d.insert entry.1 entry.2) empty

@[simp] theorem get?_empty (k : κ) : (empty : Dictionary κ ν).get? k = none := rfl

@[simp] theorem get?_insert_self (d : Dictionary κ ν) (k : κ) (v : ν) :
    (d.insert k v).get? k = some v := by
  simp [get?, insert, find_put]

theorem get?_insert (d : Dictionary κ ν) (k k' : κ) (v : ν) :
    (d.insert k v).get? k' = if k = k' then some v else d.get? k' :=
  find_put k k' v d.entries

theorem get?_foldl_insert {entries : List (κ × ν)} {k : κ} {v : ν}
    (only : ∀ entry ∈ entries, entry.1 = k → entry.2 = v) (d : Dictionary κ ν) :
    (entries.foldl (fun d entry => d.insert entry.1 entry.2) d).get? k =
      if k ∈ entries.map Prod.fst then some v else d.get? k := by
  induction entries generalizing d with
  | nil => rfl
  | cons entry rest ih =>
    rw [List.foldl_cons, ih fun other hother => only other (List.mem_cons_of_mem _ hother),
      List.map_cons, get?_insert]
    by_cases hkey : entry.1 = k
    · simp [hkey, only entry List.mem_cons_self hkey]
    · have hmem : k ∈ entry.1 :: rest.map Prod.fst ↔ k ∈ rest.map Prod.fst :=
        List.mem_cons.trans (or_iff_right (Ne.symm hkey))
      simp only [if_neg hkey, hmem]

/-- A key that is given no two values has the one it is given. -/
theorem get?_ofList {entries : List (κ × ν)} {k : κ} {v : ν}
    (only : ∀ entry ∈ entries, entry.1 = k → entry.2 = v) :
    (ofList entries).get? k = if k ∈ entries.map Prod.fst then some v else none :=
  get?_foldl_insert only empty

theorem get?_erase (d : Dictionary κ ν) (k k' : κ) :
    (d.erase k).get? k' = if k = k' then none else d.get? k' :=
  find_filter_ne k k' d.entries

theorem get?_eq_none_iff {d : Dictionary κ ν} {k : κ} : d.get? k = none ↔ k ∉ d.keys :=
  find_eq_none_iff

theorem contains_iff {d : Dictionary κ ν} {k : κ} : d.contains k = true ↔ k ∈ d.keys := by
  unfold contains
  cases h : d.get? k with
  | none => simp [get?_eq_none_iff.mp h]
  | some v =>
    by_cases hk : k ∈ d.keys
    · simp [hk]
    · simp [get?_eq_none_iff.mpr hk] at h

theorem get?_insertIfNew (d : Dictionary κ ν) (k k' : κ) (v : ν) :
    (d.insertIfNew k v).get? k' =
      if k = k' then some ((d.get? k).getD v) else d.get? k' := by
  unfold insertIfNew contains
  cases h : d.get? k with
  | none => simp [get?_insert]
  | some w =>
    by_cases hk : k = k'
    · subst hk; simp [h]
    · simp [hk]

end Dictionary

end EventLog
