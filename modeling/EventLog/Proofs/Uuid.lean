/-
# Identifiers are read as they are written

Taking the hyphens out undoes putting them in, for groups of any widths
(`splitGroups?_joinGroups`), and thirty-two digits are enough for every identifier.
-/

import EventLog.Uuid

namespace EventLog.Uuid

open Text

/-- Hyphens add one character for each border between two groups. -/
theorem length_joinGroups (width : Nat) (widths : List Nat) (cs : List Char)
    (h : cs.length = (width :: widths).foldr (· + ·) 0) :
    (joinGroups (width :: widths) cs).length = cs.length + widths.length := by
  induction widths generalizing width cs with
  | nil => rfl
  | cons next rest ih =>
      have hdrop : (cs.drop width).length = (next :: rest).foldr (· + ·) 0 := by
        rw [List.length_drop, h, List.foldr_cons]
        omega
      rw [List.foldr_cons] at h
      rw [joinGroups, List.length_append, List.length_cons, ih next (cs.drop width) hdrop,
        List.length_take, List.length_drop, List.length_cons]
      · omega
      · exact List.cons_ne_nil _ _

/-- The groups come apart as they were put together. -/
theorem splitGroups?_joinGroups (width : Nat) (widths : List Nat) (cs : List Char)
    (h : cs.length = (width :: widths).foldr (· + ·) 0) :
    splitGroups? (width :: widths) (joinGroups (width :: widths) cs) = some cs := by
  induction widths generalizing width cs with
  | nil => exact if_pos h
  | cons next rest ih =>
      have hle : width ≤ cs.length := by
        rw [h, List.foldr_cons]
        omega
      have hdrop : (cs.drop width).length = (next :: rest).foldr (· + ·) 0 := by
        rw [List.length_drop, h, List.foldr_cons]
        omega
      have htake : (cs.take width).length = width := List.length_take_of_le hle
      rw [joinGroups, splitGroups?, List.take_left' htake, List.drop_left' htake, if_pos htake]
      · show (splitGroups? (next :: rest) (joinGroups (next :: rest) (cs.drop width))).map
          (cs.take width ++ ·) = _
        rw [ih next (cs.drop width) hdrop, Option.map_some, List.take_append_drop]
      · exact List.cons_ne_nil _ _
      · exact List.cons_ne_nil _ _

theorem length_digits (u : Uuid) : u.digits.length = 32 := Numeral.length_fixed _ _ _

theorem value?_digits (u : Uuid) : Numeral.value? 16 u.digits = some u.number := by
  have hsome : u.digits.isEmpty = false := by
    cases hnone : u.digits with
    | nil =>
        have hlength := u.length_digits
        rw [hnone] at hlength
        cases hlength
    | cons => rfl
  have hvalue := Numeral.valueFrom_fixed (by decide : 0 < 16) (by decide : 16 ≤ 16) 0 u.number_lt
  rw [Nat.zero_mul, Nat.zero_add] at hvalue
  rw [Numeral.value?, hsome, if_neg Bool.false_ne_true, digits, hvalue]

theorem ofDigits?_digits (u : Uuid) : ofDigits? u.digits = some u := by
  rw [ofDigits?, if_pos u.length_digits, value?_digits]
  exact dif_pos u.number_lt

theorem length_chars (u : Uuid) : u.chars.length = 36 := by
  rw [chars, groups, length_joinGroups 8 [4, 4, 4, 12] u.digits u.length_digits, u.length_digits]
  rfl

theorem ofGroups?_chars (u : Uuid) : ofGroups? u.chars = some u := by
  rw [ofGroups?, chars, groups,
    splitGroups?_joinGroups 8 [4, 4, 4, 12] u.digits u.length_digits, Option.bind_some,
    u.ofDigits?_digits]

@[simp] theorem ofText?_text (u : Uuid) : ofText? u.text = some u := by
  have hno : ¬ u.chars.length = 32 := by
    rw [u.length_chars]
    decide
  rw [ofText?, text, String.toList_ofList, ofChars?, if_neg hno, if_pos u.length_chars,
    u.ofGroups?_chars]

end EventLog.Uuid
