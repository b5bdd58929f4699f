/-
# Blank characters

A blank is a character with the Unicode property White_Space. Numbers in settings and
tracking numbers are judged after the blanks around them have been taken away.
-/

namespace EventLog.Text

def isBlank (c : Char) : Bool :=
  let n := c.toNat
  (0x9 ≤ n && n ≤ 0xD) || n == 0x20 || n == 0x85 || n == 0xA0 || n == 0x1680 ||
    (0x2000 ≤ n && n ≤ 0x200A) || n == 0x2028 || n == 0x2029 || n == 0x202F ||
    n == 0x205F || n == 0x3000

def dropBlanks (cs : List Char) : List Char := cs.dropWhile isBlank

/-- The text without the blanks at its two ends. -/
def trim (cs : List Char) : List Char :=
  (dropBlanks (dropBlanks cs).reverse).reverse

/-- Nothing is left after trimming. -/
def allBlank (s : String) : Bool := s.toList.all isBlank

theorem dropBlanks_eq_nil_iff {cs : List Char} :
    dropBlanks cs = [] ↔ ∀ c ∈ cs, isBlank c = true := by
  induction cs with
  | nil => simp [dropBlanks]
  | cons c rest ih =>
    by_cases h : isBlank c = true <;> simp_all [dropBlanks]

/-- What is left begins with a character that is not blank. -/
theorem isBlank_head_dropBlanks {cs : List Char} {c : Char} {rest : List Char}
    (h : dropBlanks cs = c :: rest) : isBlank c = false := by
  induction cs with
  | nil => simp [dropBlanks] at h
  | cons d cs ih =>
    by_cases hd : isBlank d = true
    · exact ih (by simpa [dropBlanks, List.dropWhile_cons, hd] using h)
    · simp [dropBlanks, hd] at h
      simpa [← h.1] using hd

theorem trim_eq_nil_iff {cs : List Char} : trim cs = [] ↔ ∀ c ∈ cs, isBlank c = true := by
  rw [trim, List.reverse_eq_nil_iff, dropBlanks_eq_nil_iff]
  constructor
  · intro h
    apply dropBlanks_eq_nil_iff.mp
    cases hd : dropBlanks cs with
    | nil => rfl
    | cons c rest =>
      have hblank : isBlank c = true := h c (by simp [hd])
      simp [isBlank_head_dropBlanks hd] at hblank
  · intro h c hc
    simp [dropBlanks_eq_nil_iff.mpr h] at hc

theorem trim_ne_nil_iff {s : String} : trim s.toList ≠ [] ↔ allBlank s = false := by
  rw [ne_eq, trim_eq_nil_iff, ← List.all_eq_true, Bool.not_eq_true]
  rfl

end EventLog.Text
