/-
# Decimal digits, and blanks around them

The readers of settings and of instants look at characters through `Numeral.digit?`, which
serves every base up to sixteen. In base ten it knows the ten decimal digits and nothing else
(`digit?_ten`), and none of these is a blank. So a text that begins and ends with such characters
is what is left of it when blanks are put around it and taken away again (`trim_eq_iff`).

Numbers are written in such digits, at a fixed width or with zeros in front if they have to be
as wide as others, and every way of writing them is read back as the number (`value?_fixed`,
`value?_padded`, `value?_decimal`).
-/

import EventLog.Text.Blank
import EventLog.Text.Numeral
import Mathlib.Data.List.TakeWhile

namespace EventLog.Text

namespace Numeral

/-- In base ten the digits are the decimal digits. -/
theorem digit?_ten (c : Char) :
    digit? 10 c = if c.isDigit then some (c.toNat - '0'.toNat) else none := by
  have hrange : c.isDigit = true ↔ '0' ≤ c ∧ c ≤ '9' := Char.isDigit_iff_toNat
  unfold digit?
  by_cases hdigit : '0' ≤ c ∧ c ≤ '9'
  · have hlow : 48 ≤ c.toNat := hdigit.1
    have hhigh : c.toNat ≤ 57 := hdigit.2
    rw [if_pos (hrange.mpr hdigit), if_pos hdigit, if_pos (by omega)]
    rfl
  · rw [if_neg (mt hrange.mp hdigit), if_neg hdigit]
    -- The letters stand for ten and more.
    by_cases hsmall : 'a' ≤ c ∧ c ≤ 'f'
    · have hlow : 97 ≤ c.toNat := hsmall.1
      rw [if_pos hsmall, if_neg (by omega)]
    · rw [if_neg hsmall]
      by_cases hcapital : 'A' ≤ c ∧ c ≤ 'F'
      · have hlow : 65 ≤ c.toNat := hcapital.1
        rw [if_pos hcapital, if_neg (by omega)]
      · rw [if_neg hcapital, if_neg (by omega)]

theorem isDecimal_eq_isDigit (c : Char) : isDecimal c = c.isDigit := by
  rw [isDecimal, digit?_ten]
  cases c.isDigit <;> rfl

/-- A decimal digit is the one that its value is written with. -/
theorem eq_digitChar_of_digit?_ten {c : Char} {d : Nat} (h : digit? 10 c = some d) :
    d < 10 ∧ c = Nat.digitChar d := by
  rw [digit?_ten] at h
  by_cases hdecimal : c.isDigit = true
  · rw [if_pos hdecimal] at h
    obtain ⟨hlow, hhigh⟩ : 48 ≤ c.toNat ∧ c.toNat ≤ 57 := Char.isDigit_iff_toNat.mp hdecimal
    have hvalue : c.toNat - 48 = d := Option.some.inj h
    have hsmall : d < 10 := by omega
    have hchars : ∀ d : Fin 10, Char.ofNat (48 + d.val) = Nat.digitChar d.val := by decide
    have hchar : Char.ofNat (48 + d) = c := by
      rw [← hvalue, Nat.add_sub_cancel' hlow, Char.ofNat_toNat]
    exact ⟨hsmall, hchar.symm.trans (hchars ⟨d, hsmall⟩)⟩
  · rw [if_neg hdecimal] at h
    cases h

end Numeral

/-- The decimal digits are ten characters in a row. -/
theorem toNat_of_isDecimal {c : Char} (h : Numeral.isDecimal c = true) :
    48 ≤ c.toNat ∧ c.toNat ≤ 57 :=
  Char.isDigit_iff_toNat.mp ((Numeral.isDecimal_eq_isDigit c).symm.trans h)

/-- A digit is no blank. -/
theorem isBlank_of_isDecimal {c : Char} (h : Numeral.isDecimal c = true) : isBlank c = false := by
  obtain ⟨hlow, hhigh⟩ := toNat_of_isDecimal h
  simp only [isBlank, Bool.or_eq_false_iff, Bool.and_eq_false_iff, decide_eq_false_iff_not,
    beq_eq_false_iff_ne]
  omega

/-! ## What is written in digits -/

/-- Every character is a decimal digit. -/
def AllDigits (cs : List Char) : Prop := ∀ c ∈ cs, Numeral.isDecimal c = true

theorem isDecimal_digitChar {n : Nat} (h : n < 10) : Numeral.isDecimal n.digitChar = true := by
  rw [Numeral.isDecimal, Numeral.digit?_digitChar (by decide) h]
  rfl

theorem allDigits_fixed (width n : Nat) : AllDigits (Numeral.fixed 10 width n) := by
  induction width generalizing n with
  | zero =>
      intro c hc
      cases hc
  | succ width ih =>
      intro c hc
      rw [Numeral.fixed] at hc
      rcases List.mem_append.mp hc with hc | hc
      · exact ih _ c hc
      · rw [List.mem_singleton.mp hc]
        exact isDecimal_digitChar (Nat.mod_lt _ (by decide))

theorem allDigits_decimal (n : Nat) : AllDigits (Numeral.decimal n) := by
  induction n using Nat.strongRecOn with
  | ind n ih =>
      intro c hc
      rw [Numeral.decimal] at hc
      by_cases hsmall : n < 10
      · rw [if_pos hsmall] at hc
        rw [List.mem_singleton.mp hc]
        exact isDecimal_digitChar hsmall
      · rw [if_neg hsmall] at hc
        rcases List.mem_append.mp hc with hc | hc
        · exact ih (n / 10) (by omega) c hc
        · rw [List.mem_singleton.mp hc]
          exact isDecimal_digitChar (Nat.mod_lt _ (by decide))

theorem value?_fixed {width n : Nat} (hwidth : 0 < width) (h : n < Nat.pow 10 width) :
    Numeral.value? 10 (Numeral.fixed 10 width n) = some n := by
  have hsome : (Numeral.fixed 10 width n).isEmpty = false := by
    cases hnone : Numeral.fixed 10 width n with
    | nil =>
        have hlength := Numeral.length_fixed 10 width n
        rw [hnone] at hlength
        exact absurd hlength (Nat.ne_of_lt hwidth)
    | cons => rfl
  have hvalue := Numeral.valueFrom_fixed (by decide : 0 < 10) (by decide : 10 ≤ 16) 0 h
  rw [Nat.zero_mul, Nat.zero_add] at hvalue
  rw [Numeral.value?, hsome]
  exact hvalue

/-- Zeros in front do not count. -/
theorem value?_padded (width n : Nat) : Numeral.value? 10 (Numeral.padded width n) = some n := by
  have hzeros : ∀ k, Numeral.valueFrom 10 0 (List.replicate k '0') = some 0 := by
    intro k
    induction k with
    | zero => rfl
    | succ k ih => exact ih
  have hsome : (Numeral.padded width n).isEmpty = false := by
    unfold Numeral.padded
    rw [Numeral.decimal]
    split <;> simp
  rw [Numeral.value?, hsome]
  show Numeral.valueFrom 10 0 (_ ++ _) = _
  rw [Numeral.valueFrom_append, hzeros, Option.bind_some, Numeral.valueFrom_decimal,
    Nat.zero_mul, Nat.zero_add]

theorem value?_decimal (n : Nat) : Numeral.value? 10 (Numeral.decimal n) = some n := by
  have hpadded : Numeral.padded 0 n = Numeral.decimal n := by
    rw [Numeral.padded, Nat.zero_sub]
    rfl
  rw [← hpadded, value?_padded]

theorem allDigits_padded (width n : Nat) : AllDigits (Numeral.padded width n) := by
  intro c hc
  unfold Numeral.padded at hc
  rcases List.mem_append.mp hc with hc | hc
  · rw [List.eq_of_mem_replicate hc]
    rfl
  · exact allDigits_decimal n c hc

/-! ## Trimmed texts -/

/-- What is in front of the first character that is no blank consists of blanks. -/
theorem exists_blanks_dropBlanks (cs : List Char) :
    ∃ front, cs = front ++ dropBlanks cs ∧ ∀ c ∈ front, isBlank c = true :=
  ⟨cs.takeWhile isBlank, List.takeWhile_append_dropWhile.symm, fun _ hc =>
    List.mem_takeWhile_imp hc⟩

theorem dropBlanks_append {front : List Char} (hfront : ∀ c ∈ front, isBlank c = true)
    (cs : List Char) : dropBlanks (front ++ cs) = dropBlanks cs :=
  List.dropWhile_append_of_pos hfront

/-- A text that begins with no blank. -/
def Begins (cs : List Char) : Prop := ∀ c, cs.head? = some c → isBlank c = false

theorem dropBlanks_of_begins {cs : List Char} (h : Begins cs) : dropBlanks cs = cs := by
  cases cs with
  | nil => rfl
  | cons c rest => exact List.dropWhile_cons_of_neg (by simp [h c rfl])

theorem begins_dropBlanks (cs : List Char) : Begins (dropBlanks cs) := by
  intro c hc
  obtain ⟨rest, hrest⟩ := List.head?_eq_some_iff.mp hc
  exact isBlank_head_dropBlanks hrest

/-- The trimmed text is what is left between blanks of a text that neither begins nor ends with
one. -/
theorem trim_eq_iff {cs text : List Char} :
    trim cs = text ↔ (∃ front back, cs = front ++ text ++ back ∧
      (∀ c ∈ front, isBlank c = true) ∧ ∀ c ∈ back, isBlank c = true) ∧
      Begins text ∧ Begins text.reverse := by
  constructor
  · rintro rfl
    obtain ⟨front, hfront, hblank⟩ := exists_blanks_dropBlanks cs
    obtain ⟨back, hback, hblank'⟩ := exists_blanks_dropBlanks (dropBlanks cs).reverse
    have hdropped : dropBlanks cs = trim cs ++ back.reverse := by
      rw [trim, ← List.reverse_append, ← hback, List.reverse_reverse]
    refine ⟨⟨front, back.reverse, ?_, hblank, fun c hc => hblank' c (List.mem_reverse.mp hc)⟩,
      ?_, ?_⟩
    · rw [List.append_assoc, ← hdropped, ← hfront]
    · intro c hc
      obtain ⟨rest, hrest⟩ := List.head?_eq_some_iff.mp hc
      exact isBlank_head_dropBlanks (hdropped.trans (by rw [hrest, List.cons_append]))
    · rw [trim, List.reverse_reverse]
      exact begins_dropBlanks _
  · rintro ⟨⟨front, back, rfl, hfront, hback⟩, hbegins, hends⟩
    have hback' : ∀ c ∈ back.reverse, isBlank c = true :=
      fun c hc => hback c (List.mem_reverse.mp hc)
    rw [trim, List.append_assoc, dropBlanks_append hfront]
    cases text with
    | nil => rw [List.nil_append, dropBlanks_eq_nil_iff.mpr hback]; rfl
    | cons c rest =>
        have hkept : dropBlanks (c :: rest ++ back) = c :: rest ++ back :=
          dropBlanks_of_begins fun d hd => hbegins d hd
        rw [hkept, List.reverse_append, dropBlanks_append hback', dropBlanks_of_begins hends,
          List.reverse_reverse]

end EventLog.Text
