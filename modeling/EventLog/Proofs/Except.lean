/-
# Computations that may fail

Decoding the rows of a table, replaying a history and deciding a command all stop at the first
thing that goes wrong. What they return is taken apart and put together here, once for all of
them.
-/

namespace Except

variable {α β κ : Type}

/-- The answer to what was tried on a value, and the value afterwards: what fails leaves the value
as it was. -/
def settle (before : α) : Except κ α → Except κ Unit × α
  | .error e => (.error e, before)
  | .ok after => (.ok (), after)

/-- What fails changes nothing. -/
theorem settle_of_error {before : α} {outcome : Except κ α} {e : κ}
    (h : (outcome.settle before).1 = .error e) : (outcome.settle before).2 = before := by
  cases outcome with
  | error cause => rfl
  | ok after => cases h

theorem bind_eq_ok_iff {x : Except κ α} {f : α → Except κ β} {b : β} :
    x >>= f = .ok b ↔ ∃ a, x = .ok a ∧ f a = .ok b := by
  cases x with
  | error e => simp [bind, Except.bind]
  | ok a => simp [bind, Except.bind]

theorem bind_eq_error_iff {x : Except κ α} {f : α → Except κ β} {e : κ} :
    x >>= f = .error e ↔ x = .error e ∨ ∃ a, x = .ok a ∧ f a = .error e := by
  cases x with
  | error cause => simp [bind, Except.bind]
  | ok a => simp [bind, Except.bind]

theorem toOption_eq_some_iff {x : Except κ α} {a : α} :
    x.toOption = some a ↔ x = .ok a := by
  cases x <;> simp [Except.toOption]

/-! ## Lists -/

section Lists

variable {f : α → Except κ β} {list : List α} {e : κ}

/-- The first element that fails does so with this error. -/
def FirstFailure (f : α → Except κ β) (list : List α) (e : κ) : Prop :=
  ∃ before a after, list = before ++ a :: after ∧
    (∀ earlier ∈ before, ∃ b, f earlier = .ok b) ∧ f a = .error e

theorem firstFailure_cons {a : α} :
    FirstFailure f (a :: list) e ↔ f a = .error e ∨ (∃ b, f a = .ok b) ∧ FirstFailure f list e := by
  constructor
  · rintro ⟨before, failing, after, hlist, hbefore, hfails⟩
    cases before with
    | nil =>
        cases hlist
        exact .inl hfails
    | cons first before =>
        cases hlist
        exact .inr ⟨hbefore a List.mem_cons_self, before, failing, after, rfl,
          fun earlier hearlier => hbefore earlier (List.mem_cons_of_mem _ hearlier), hfails⟩
  · rintro (hfails | ⟨hfirst, before, failing, after, rfl, hbefore, hfails⟩)
    · exact ⟨[], a, list, rfl, nofun, hfails⟩
    · exact ⟨a :: before, failing, after, rfl, List.forall_mem_cons.mpr ⟨hfirst, hbefore⟩, hfails⟩

/-- Elements are mapped one after another, and the first that fails decides. -/
theorem mapM_eq_error_iff : list.mapM f = .error e ↔ FirstFailure f list e := by
  induction list with
  | nil => simp [FirstFailure, pure, Except.pure]
  | cons a rest ih =>
      rw [List.mapM_cons, bind_eq_error_iff, firstFailure_cons, ← ih]
      refine or_congr_right ?_
      constructor
      · rintro ⟨b, hb, h⟩
        obtain hrest | ⟨others, -, hnever⟩ := bind_eq_error_iff.mp h
        · exact ⟨⟨b, hb⟩, hrest⟩
        · cases hnever
      · rintro ⟨⟨b, hb⟩, hrest⟩
        exact ⟨b, hb, bind_eq_error_iff.mpr (.inl hrest)⟩

/-- Where a list cannot be mapped, one of its elements cannot. -/
theorem exists_error_of_mapM (h : list.mapM f = .error e) : ∃ a ∈ list, f a = .error e := by
  obtain ⟨before, a, after, rfl, -, hfails⟩ := mapM_eq_error_iff.mp h
  exact ⟨a, List.mem_append_right before List.mem_cons_self, hfails⟩

/-- Where a list can be mapped, each of its elements can. -/
theorem exists_ok_of_mapM {results : List β} (h : list.mapM f = .ok results) {a : α}
    (ha : a ∈ list) : ∃ b, f a = .ok b := by
  induction list generalizing results with
  | nil => cases ha
  | cons first rest ih =>
      rw [List.mapM_cons] at h
      obtain ⟨b, hb, h⟩ := bind_eq_ok_iff.mp h
      obtain ⟨others, hothers, -⟩ := bind_eq_ok_iff.mp h
      rcases List.mem_cons.mp ha with rfl | ha
      · exact ⟨b, hb⟩
      · exact ih hothers ha

theorem length_of_mapM {results : List β} (h : list.mapM f = .ok results) :
    results.length = list.length := by
  induction list generalizing results with
  | nil =>
      cases h
      rfl
  | cons a rest ih =>
      rw [List.mapM_cons] at h
      obtain ⟨b, -, h⟩ := bind_eq_ok_iff.mp h
      obtain ⟨others, hothers, h⟩ := bind_eq_ok_iff.mp h
      cases h
      rw [List.length_cons, List.length_cons, ih hothers]

end Lists

/-- Elements that all stand for something are mapped to what they stand for. -/
theorem mapM_eq_filterMap {f : α → Option β} {g : α → Except κ β} {list : List α}
    (same : ∀ a ∈ list, ∃ b, f a = some b ∧ g a = .ok b) :
    list.mapM g = .ok (list.filterMap f) := by
  induction list with
  | nil => rfl
  | cons a rest ih =>
      obtain ⟨b, hf, hg⟩ := same a List.mem_cons_self
      rw [List.mapM_cons, hg, ih fun other hother => same other (List.mem_cons_of_mem _ hother),
        List.filterMap_cons_some hf]
      rfl

/-- Rows that have been written one by one are decoded one by one. -/
theorem mapM_map_of_ok {γ : Type} {f : β → Except κ γ} {g : α → β} {h : α → γ}
    {list : List α} (decodes : ∀ a ∈ list, f (g a) = .ok (h a)) :
    (list.map g).mapM f = .ok (list.map h) := by
  rw [List.mapM_map, ← List.filterMap_eq_map]
  exact mapM_eq_filterMap fun a ha => ⟨h a, rfl, decodes a ha⟩

end Except
